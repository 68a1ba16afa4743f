import Refit.Files.Walk
import Refit.Project.Layout
import Refit.Project.Model
import Refit.Route.Basic

namespace Refit

namespace Tooling

structure Packages where
  names : List String

def Packages.ofNames (names : List String) : Packages := ⟨names.map Text.lower⟩

def Packages.has (packages : Packages) (name : String) : Bool := packages.names.contains name

def Packages.hasAny (packages : Packages) (names : List String) : Bool := names.any packages.has

def packageManager (lockFiles : List String) : String :=
  if lockFiles.contains "pnpm-lock.yaml" then "pnpm"
  else if lockFiles.contains "yarn.lock" then "yarn"
  else "npm"

def framework (packages : Packages) (fallback : String) : String :=
  if packages.hasAny ["@remix-run/node", "@remix-run/react"] then "remix"
  else if packages.has "next" then "nextjs"
  else fallback

def buildTool (packages : Packages) (configFiles : List String) : String :=
  if packages.has "next" then "next"
  else if packages.has "@remix-run/dev" && !packages.has "vite" then "remix"
  else if packages.has "vite" || configFiles.any (Text.startsWith · "vite.config.") then "vite"
  else if packages.hasAny ["webpack", "react-scripts"] then "webpack"
  else "vite"

def styling (packages : Packages) (styleFiles : List String) : String :=
  if packages.has "tailwindcss" then "tailwind"
  else if packages.has "styled-components" then "styled-components"
  else if packages.hasAny ["@emotion/react", "@emotion/styled"] then "emotion"
  else if styleFiles.any (Text.contains · ".module.") then "css-modules"
  else if styleFiles.any (Text.endsWith · ".scss") then "scss"
  else if styleFiles.any (Text.endsWith · ".less") then "less"
  else "css"

def stateLibraries : List (String × String) :=
  [("zustand", "zustand"), ("@reduxjs/toolkit", "redux"), ("redux", "redux"), ("recoil", "recoil"),
   ("jotai", "jotai"), ("mobx", "mobx")]

def stateLibrary? (packages : Packages) : Option String :=
  (stateLibraries.find? (fun entry => packages.has entry.1)).map (·.2)

def stateModules (library : String) : List String :=
  (stateLibraries.filter (fun entry => entry.2 = library)).map (·.1)

def testFramework? (packages : Packages) : Option String :=
  if packages.has "vitest" then some "vitest"
  else if packages.has "jest" then some "jest"
  else none

def hasCoverage (packages : Packages) (scripts : List (String × Json.Value)) : Bool :=
  packages.hasAny ["@vitest/coverage-v8", "@vitest/coverage-istanbul", "c8", "nyc"]
    || scripts.any (fun script => Text.contains (Json.plain script.2) "--coverage")

def hasEndToEnd (packages : Packages) : Bool :=
  packages.hasAny ["@playwright/test", "playwright", "cypress"]

end Tooling

structure Survey where
  disk : Disk
  root : Path
  layout : Layout
  rules : List IgnoreRule

namespace Survey

def files (survey : Survey) (directory : Path) (extensions : List String) : Except Fault (List Path) :=
  (Walk.files ⟨extensions, survey.rules⟩ survey.disk directory survey.root).mapError .outside

def seenFrom (directory path : Path) : Except Fault String :=
  match path.relativeTo? directory with
  | some names => .ok (Path.ofNames names)
  | none => .error (.outside ⟨path, directory⟩)

def relative (survey : Survey) (path : Path) : Except Fault String := seenFrom survey.root path

def place (survey : Survey) (name : String) : Path := survey.root.join (Path.ofString name)

def firstDirectory? (survey : Survey) (candidates : List String) : Option String :=
  candidates.find? (fun name => survey.disk.isDirectory (survey.place name))

def directoryOf (survey : Survey) (candidates : List String) : Except Fault String :=
  match (survey.firstDirectory? candidates).filter (· ≠ ""), candidates with
  | some name, _ => .ok name
  | none, name :: _ => .ok name
  | none, [] => .error .noCandidate

def structureOf (survey : Survey) : Except Fault Structure := do
  let layout := survey.layout
  let sourceDir ← survey.directoryOf layout.sourceDirs
  let componentsDir ← survey.directoryOf layout.componentDirs
  pure
    { sourceDir := sourceDir
      componentsDir := componentsDir
      pagesDir := survey.firstDirectory? layout.pageDirs
      stylesDir := survey.firstDirectory? layout.styleDirs
      assetsDir := survey.firstDirectory? layout.assetDirs
      publicDir := survey.firstDirectory? layout.publicDirs
      configFiles := layout.configFiles.filter (fun name => survey.disk.isFile (survey.place name))
      hasTypescript := layout.typescriptMarks.any (fun name => survey.disk.exists? (survey.place name))
      hasTests := layout.testDirs.any (fun name => survey.disk.isDirectory (survey.place name)) }

structure Reading where
  path : String
  text : Option String
  source : Option Source
  notice : Option Notice

def readUnit (survey : Survey) (path : Path) (relative : String) : Except Fault Reading :=
  match survey.disk.readText path with
  | .ok text =>
    match Source.parse relative text with
    | .ok source => .ok ⟨relative, some text, some source, none⟩
    | .error fault =>
      .ok ⟨relative, some text, none,
        some
          { file := relative
            kind := "parse"
            message := fault.message
            suggestion := some "Fix the syntax error and re-run the migration for this file." }⟩
  | .error (.undecodable fault) =>
    .ok ⟨relative, none, none,
      some
        { file := relative
          kind := "parse"
          message := "Could not decode " ++ relative ++ ": " ++ fault.message }⟩
  | .error fault => .error fault

/-- The text that ties companions to their component: a directory and a stem. -/
def companionKey (survey : Survey) (directory : Path) (stem : String) : Except Fault String :=
  if directory = survey.root then .ok stem
  else do
    let place ← survey.relative directory
    pure (place ++ "/" ++ stem)

def beforeDot (name : String) : String := String.ofList (name.toList.takeWhile (· ≠ '.'))

/-- The key of the component that a companion belongs to. A directory of tests stands for the one
    above it. -/
def ownerKey (survey : Survey) (path : Path) : Except Fault String :=
  let directory :=
    if path.parent.name = FileKind.testsDirectory then path.parent.parent else path.parent
  survey.companionKey directory (beforeDot path.name)

def isStory (path : String) : Bool := Text.contains path ".stories." || Text.contains path ".story."

abbrev Companions := List (String × String)

def companionsOf (survey : Survey) (paths : List Path) : Except Fault Companions :=
  paths.mapM (fun path => do pure (← survey.ownerKey path, ← survey.relative path))

def kindOf (name identifier : String) (source : Source) : ComponentKind :=
  let classes := source.classComponents
  if classes.contains identifier || classes.contains name then .stateful
  else if Naming.isHookName identifier.toList then .hook
  else .functional

def named (names : List String) : List String := Source.distinct (names.filter (· ≠ ""))

def componentOf (survey : Survey) (companions : Companions) (path : Path) :
    Except Fault (Component × Reading) := do
  let relative ← survey.relative path
  let name := path.stem
  let key ← survey.companionKey path.parent name
  let attached := (companions.filter (fun entry => entry.1 = key)).map (·.2)
  let reading ← survey.readUnit path relative
  let bare : Component :=
    { name := name
      path := relative
      tests := attached.filter (fun file => !isStory file)
      story := attached.find? isStory }
  match reading.source with
  | none => pure (bare, reading)
  | some source =>
    let identifier := Naming.identifier name
    pure
      ({ bare with
          kind := kindOf name identifier source
          props := source.componentProps identifier
          dependencies := named (source.imports.map (·.moduleName))
          hasState := source.hasState
          hooks := named (source.hookCalls.map (·.name))
          complexity := source.complexity },
        reading)

def isCompanion (survey : Survey) (path : Path) : Except Fault Bool :=
  (FileKind.isCompanion path (some survey.root)).mapError .outside

def separate (survey : Survey) : List Path → Except Fault (List Path × List Path)
  | [] => .ok ([], [])
  | path :: rest => do
      let companion ← survey.isCompanion path
      let (units, companions) ← survey.separate rest
      pure (if companion then (units, path :: companions) else (path :: units, companions))

def components (survey : Survey) (found : Structure) : Except Fault (List (Component × Reading)) := do
  let files ← survey.files (survey.place found.componentsDir) FileKind.sourceExtensions
  let (units, companionFiles) ← survey.separate files
  let companions ← survey.companionsOf companionFiles
  units.mapM (survey.componentOf companions)

def genericFetching : List (String × String) :=
  [("getServerSideProps", "ssr"), ("getStaticProps", "ssg"), ("useQuery", "client"), ("useSWR", "client")]

def isQuote (c : Char) : Bool := c = '"' || c = '\''

def literalHere (text : List Char) : Option String :=
  match text.dropWhile Text.isBlank with
  | c :: rest =>
    let inner := rest.takeWhile (fun c => !isQuote c)
    if isQuote c && !inner.isEmpty && inner.length < rest.length then some (String.ofList inner) else none
  | [] => none

def literalAfter (label : List Char) : List Char → Option String
  | [] => none
  | c :: rest =>
    if label.isPrefixOf (c :: rest) then
      match literalHere ((c :: rest).drop label.length) with
      | some literal => some literal
      | none => literalAfter label rest
    else literalAfter label rest

def aboutPage (text : String) : PageMeta :=
  if Text.contains text "meta" || Text.contains text "title:" then
    { title := literalAfter "title:".toList text.toList
      description := literalAfter "description:".toList text.toList }
  else {}

def pageOf (survey : Survey) (directory path : Path) : Except Fault (Page × Reading) := do
  let relative ← survey.relative path
  let below ← seenFrom directory path
  let reading ← survey.readUnit path relative
  let text := reading.text.getD ""
  let layout := survey.layout
  pure
    ({ name := path.stem
       path := relative
       route := Route.ofPath layout.lowercaseRoutes below
       components := (reading.source.map Source.componentElements).getD []
       hasLayout := layout.layoutMarks.any (Text.contains text ·)
       hasAuth := layout.authMarks.any (Text.contains text ·)
       dataFetching :=
         ((layout.fetchingMarks ++ genericFetching).find? (fun mark => Text.contains text mark.1)).map (·.2)
       about := aboutPage text },
      reading)

def pages (survey : Survey) (found : Structure) : Except Fault (List (Page × Reading)) :=
  match found.pagesDir.filter (· ≠ "") with
  | none => .ok []
  | some name => do
      let directory := survey.place name
      let files ← survey.files directory FileKind.sourceExtensions
      let (units, _) ← survey.separate files
      units.mapM (survey.pageOf directory)

abbrev Sources := List (String × String)

def sourcesOf (readings : List Reading) : Sources :=
  readings.foldl
    (fun sources reading =>
      match reading.text with
      | some text => Json.insert sources reading.path text
      | none => sources)
    []

def styling (survey : Survey) (packages : Tooling.Packages) : Except Fault StyleUse := do
  let lists ← (survey.layout.styleDirs.filter (fun name => survey.disk.isDirectory (survey.place name))).mapM
    (fun name => survey.files (survey.place name) FileKind.styleExtensions)
  let files ← lists.flatten.mapM survey.relative
  pure { type := Tooling.styling packages files, files := files }

def assetOf (survey : Survey) (sources : Sources) (directory path : Path) : Except Fault Asset := do
  let content ← survey.disk.readFile path
  let relative ← survey.relative path
  let below ← seenFrom directory path
  pure
    { name := below
      path := relative
      type := (FileKind.assetOf (Path.ofString path.name)).text
      size := content.length
      used := sources.any (fun source => Text.contains source.2 path.name) }

def assetsIn (survey : Survey) (sources : Sources) (name : String) : Except Fault (List Asset) := do
  let directory := survey.place name
  let files ← survey.files directory []
  (files.filter (fun path => !Text.startsWith path.name ".")).mapM (survey.assetOf sources directory)

def assets (survey : Survey) (found : Structure) (sources : Sources) : Except Fault (List Asset) := do
  let lists ← ((found.publicDir.toList ++ found.assetsDir.toList).filter (· ≠ "")).mapM (survey.assetsIn sources)
  pure lists.flatten

/-- The content of a configuration file. Text that is no JSON is kept as it is, with a notice if it
    should have been JSON; a number that is too long is a fault. -/
def configurationOf (survey : Survey) (name : String) : Except Fault (Json.Value × Option Notice) := do
  let content ← survey.disk.readLossy (survey.place name)
  let raw : Json.Value := .object [("content", .string content)]
  if Text.endsWith name ".json" then
    match Json.read content with
    | .ok value => pure (value, none)
    | .error ⟨.longInteger digits, _⟩ => throw (.longInteger digits)
    | .error fault =>
      pure (raw, some
        { file := name
          kind := "parse"
          message := "Could not parse " ++ name ++ ": " ++ fault.message content })
  else pure (raw, none)

def configurations (survey : Survey) (found : Structure) :
    Except Fault (List (String × Json.Value × Option Notice)) :=
  (found.configFiles.filter (· ≠ "package.json")).mapM
    (fun name => do pure (name, ← survey.configurationOf name))

def stateUse (packages : Tooling.Packages) (components : List Component) (sources : Sources) : StateUse :=
  match Tooling.stateLibrary? packages with
  | some library =>
    let modules := Tooling.stateModules library
    { type := library
      files := (components.filter (fun component =>
        component.dependencies.any modules.contains)).map (·.path) }
  | none =>
    let files := (sources.filter (fun source => Text.contains source.2 "createContext")).map (·.1)
    if files.isEmpty then {} else { type := "context", files := files }

def routeUse (page : Page) : RouteUse :=
  { path := page.route
    component := page.name
    isProtected := page.hasAuth
    params := Route.parameters page.route }

def routing (framework : String) (packageNames : List String) (pages : List Page) : RoutingUse :=
  let router :=
    if framework = "remix" then "remix-router"
    else if framework = "nextjs" then "next-router"
    else if packageNames.contains "react-router-dom" then "react-router"
    else if !pages.isEmpty then "file-based"
    else "none"
  { type := router, routes := pages.map routeUse }

def testing (manifest : Manifest) (packages : Tooling.Packages) (components : List Component) :
    Option TestUse :=
  let files := components.flatMap (·.tests)
  let framework := Tooling.testFramework? packages
  if framework.isNone && files.isEmpty then none
  else
    some
      { framework := framework.getD "vitest"
        files := files
        coverage := Tooling.hasCoverage packages manifest.scripts
        endToEnd := Tooling.hasEndToEnd packages }

def lockFiles : List String := ["pnpm-lock.yaml", "yarn.lock", "package-lock.json"]

def part : String := "analyzer"

def noteAll (readings : List Reading) : Report Unit :=
  readings.forM (fun reading =>
    match reading.notice with
    | some notice => Report.note .warning part notice.message
    | none => pure ())

def noteMissing (survey : Survey) (found : Structure) : Report Unit :=
  if survey.disk.isDirectory (survey.place found.componentsDir) then pure ()
  else Report.note .debug part ("No component directory found under " ++ survey.root.toString)

def analyze (survey : Survey) (texts : List ExtractedText) : Report Analysis := do
  let root := survey.root.toString
  Report.note .info part ("Analyzing " ++ survey.layout.source ++ " project at " ++ root)
  let manifest ← Report.ofExcept (Manifest.load survey.disk survey.root)
  let names := manifest.packageNames
  let packages := Tooling.Packages.ofNames names
  let found ← Report.ofExcept survey.structureOf
  survey.noteMissing found
  let components ← Report.ofExcept (survey.components found)
  noteAll (components.map (·.2))
  let pages ← Report.ofExcept (survey.pages found)
  noteAll (pages.map (·.2))
  let readings := components.map (·.2) ++ pages.map (·.2)
  let sources := sourcesOf readings
  let styling ← Report.ofExcept (survey.styling packages)
  let assets ← Report.ofExcept (survey.assets found sources)
  let configurations ← Report.ofExcept (survey.configurations found)
  let framework := Tooling.framework packages survey.layout.defaultFramework
  let analysis : Analysis :=
    { root := root
      source := survey.layout.source
      framework := framework
      language := if found.hasTypescript then "typescript" else "javascript"
      packageManager := Tooling.packageManager
        (lockFiles.filter (fun name => survey.disk.exists? (survey.place name)))
      layout := found
      dependencies := manifest.dependencies "dependencies"
      devDependencies := manifest.dependencies "devDependencies"
      components := components.map (·.1)
      pages := pages.map (·.1)
      assets := assets
      configuration := configurations.map (fun entry => (entry.1, entry.2.1))
      buildTool := Tooling.buildTool packages found.configFiles
      styling := styling
      stateManagement := some (stateUse packages (components.map (·.1)) sources)
      routing := some (routing framework names (pages.map (·.1)))
      testing := testing manifest packages (components.map (·.1))
      texts := texts
      notices := readings.filterMap (·.notice) ++ configurations.filterMap (·.2.2) }
  Report.note .info part
    ("Analysis complete: " ++ toString analysis.components.length ++ " components, "
      ++ toString analysis.pages.length ++ " pages, " ++ toString analysis.notices.length ++ " warnings")
  pure analysis

end Survey
end Refit
