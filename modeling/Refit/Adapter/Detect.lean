import Refit.Conversion.Basic
import Refit.Files.Walk
import Refit.Project.Layout

namespace Refit

inductive Signal where
  | markerFile
  | dependency
  | layoutDirectory
  | usage
  | remixStack
  | routeModules
  deriving DecidableEq

def Signal.name : Signal → String
  | markerFile => "has_marker_file"
  | dependency => "has_dependency"
  | layoutDirectory => "has_layout_dir"
  | usage => "has_usage"
  | remixStack => "has_remix_stack"
  | routeModules => "has_route_modules"

structure Dialect where
  name : String
  description : String
  signals : List Signal
  profile : DetectionProfile
  layout : Layout
  rules : Conversion.Rules
  /-- Whether generated styles have all design tokens, and the styles of the library go with them. -/
  extendedTokens : Bool
  carriesStyles : Bool

namespace Dialect

def basicSignals : List Signal := [.markerFile, .dependency, .layoutDirectory, .usage]

def lovableModules : List String := ["@lovable-dev/ui", "@lovable/components", "lovable-ui"]

def lovableMapping : List (String × String) :=
  [("LovableButton", "Button"), ("LovableInput", "Input"), ("LovableCard", "Card"),
   ("LovableModal", "Modal"), ("LovableForm", "Form"), ("LovableGrid", "Grid"),
   ("LovableContainer", "Container"), ("LovableText", "Typography"), ("LovableImage", "Image"),
   ("LovableIcon", "Icon")]

def lovable : Dialect :=
  { name := "lovable"
    description := "Lovable"
    signals := basicSignals
    profile :=
      { markerFiles := ["lovable.config.js", ".lovable", "lovable.json"]
        dependencies := lovableModules
        usageTokens := lovableModules ++ lovableMapping.map (·.1) }
    layout :=
      { source := "lovable"
        styleDirs := ["src/styles", "styles", "src/css", "css"]
        authMarks := ["useAuth", "withAuth"]
        layoutMarks := ["Layout"]
        lowercaseRoutes := true }
    rules :=
      { mapping := lovableMapping
        vendorMark := "Lovable"
        vendorModules := lovableModules
        vendorPathMarks := []
        runtimeMarks := []
        runtimeTargets := []
        hookNames := [] }
    extendedTokens := false
    carriesStyles := false }

def boltModules : List String :=
  ["@bolt/core", "bolt-ui", "@bolt/components", "bolt-router", "bolt-state"]

def sharedPrimitives : List String :=
  ["Button", "Input", "Card", "Modal", "Form", "Grid", "Container", "Image", "Icon", "Select",
   "Checkbox", "Radio", "Switch", "Slider", "Tabs", "Accordion", "Toast", "Dialog", "Popover", "Tooltip"]

def boltMapping : List (String × String) :=
  ("Text", "Typography") :: sharedPrimitives.map (fun name => (name, name))

def boltHooks : List (String × String) :=
  [("useLoaderData", "useData"), ("useActionData", "useFormState"), ("useTransition", "useLoading"),
   ("useNavigation", "useLoading")]

def routerNames : List String :=
  ["Link", "NavLink", "Outlet", "useNavigate", "useParams", "useSearchParams", "useLocation"]

def boltTargets : List (String × List (String × Conversion.RuntimeTarget)) :=
  [("react", routerNames.map (fun name => (name, ⟨"react-router-dom", name, false⟩))),
   ("nextjs",
     [("Link", ⟨"next/link", "Link", true⟩),
      ("NavLink", ⟨"next/link", "Link", true⟩),
      ("useNavigate", ⟨"next/navigation", "useRouter", false⟩),
      ("useParams", ⟨"next/navigation", "useParams", false⟩),
      ("useSearchParams", ⟨"next/navigation", "useSearchParams", false⟩),
      ("useLocation", ⟨"next/navigation", "usePathname", false⟩)])]

def bolt : Dialect :=
  { name := "bolt"
    description := "Bolt.new"
    signals := basicSignals ++ [.remixStack, .routeModules]
    profile :=
      { markerFiles := [".bolt", "bolt.config.js", "bolt.config.json", ".boltrc"]
        dependencies := boltModules
        layoutDirs := ["app/routes", "app/components", "app/lib", "app/styles", "routes", "server"]
        usageTokens := ["@bolt/", "bolt-ui", "bolt-router", "bolt-state"]
        scanDirs := ["app", "src"] }
    layout :=
      { source := "bolt"
        defaultFramework := "remix"
        sourceDirs := ["app", "src"]
        componentDirs := ["app/components", "components"]
        pageDirs := ["app/routes", "routes"]
        styleDirs := ["app/styles", "styles"]
        assetDirs := ["app/assets", "assets"]
        typescriptMarks := ["tsconfig.json", "app/root.tsx", "remix.config.ts"]
        configFiles := ["package.json", "tsconfig.json", "remix.config.js", "vite.config.ts"]
        authMarks := ["requireAuth", "authenticate"]
        layoutMarks := ["Layout", "Outlet"]
        fetchingMarks := [("loader", "ssr"), ("action", "ssr")] }
    rules :=
      { mapping := boltMapping
        vendorMark := "Bolt"
        vendorModules := boltModules
        vendorPathMarks := ["components/ui/"]
        runtimeMarks := ["@remix-run/"]
        runtimeTargets := boltTargets
        hookNames := boltHooks }
    extendedTokens := true
    carriesStyles := true }

def placeOf (root : Path) (name : String) : Path := root.join (Path.ofString name)

def usesToken (disk : Disk) (tokens : List String) (path : Path) : Except Fault Bool := do
  let text ← disk.readLossy path
  pure (tokens.any (Text.contains text ·))

def someM {α : Type} (property : α → Except Fault Bool) : List α → Except Fault Bool
  | [] => .ok false
  | item :: rest => do if ← property item then pure true else someM property rest

def usedIn (dialect : Dialect) (rules : List IgnoreRule) (disk : Disk) (root : Path) (name : String) :
    Except Fault Bool := do
  let directory := placeOf root name
  if !disk.isDirectory directory then pure false
  else
    let files ← (Walk.files ⟨FileKind.sourceExtensions, rules⟩ disk directory root).mapError .outside
    someM (usesToken disk dialect.profile.usageTokens) files

def remixPartners : List String := ["@remix-run/react", "prisma", "tailwindcss"]

def routeDirectories : List String := ["app/routes", "routes/api", "server"]

def hasRouteModule (rules : List IgnoreRule) (disk : Disk) (root : Path) (name : String) : Except Fault Bool :=
  let directory := placeOf root name
  if !disk.isDirectory directory then .ok false
  else do
    let files ← (Walk.files ⟨[".ts", ".tsx"], rules⟩ disk directory directory).mapError .outside
    pure (!files.isEmpty)

def check (dialect : Dialect) (rules : List IgnoreRule) (disk : Disk) (root : Path) :
    Signal → Except Fault Bool
  | .markerFile => .ok (dialect.profile.markerFiles.any (fun name => disk.exists? (placeOf root name)))
  | .dependency => do
      let names := (← Manifest.load disk root).packageNames
      pure (dialect.profile.dependencies.any names.contains)
  | .layoutDirectory => .ok (dialect.profile.layoutDirs.any (fun name => disk.isDirectory (placeOf root name)))
  | .usage =>
    if dialect.profile.usageTokens.isEmpty then .ok false
    else someM (dialect.usedIn rules disk root) dialect.profile.scanDirs
  | .remixStack => do
      let names := (← Manifest.load disk root).packageNames
      pure (names.contains "@remix-run/node" && remixPartners.any names.contains)
  | .routeModules => someM (hasRouteModule rules disk root) routeDirectories

def part (dialect : Dialect) : String := "adapters." ++ dialect.name

/-- Tries signals in order until one finds its sign. A signal that fails ends the search. -/
def tryChecks (dialect : Dialect) (root : Path) : List (String × Except Fault Bool) → Report Bool
  | [] => pure false
  | (name, outcome) :: rest =>
    match outcome with
    | .ok true => do
        Report.note .debug dialect.part
          (dialect.name ++ " signal " ++ name ++ " matched " ++ root.toString)
        pure true
    | .ok false => tryChecks dialect root rest
    | .error fault => do
        Report.note .error dialect.part
          ("Error checking " ++ dialect.name ++ " project at " ++ root.toString ++ ": " ++ fault.message)
        pure false

def checks (dialect : Dialect) (rules : List IgnoreRule) (disk : Disk) (root : Path) :
    List (String × Except Fault Bool) :=
  dialect.signals.map (fun signal => (signal.name, dialect.check rules disk root signal))

def recognises (dialect : Dialect) (rules : List IgnoreRule) (disk : Disk) (root : Path) : Report Bool :=
  if disk.isDirectory root then dialect.tryChecks root (dialect.checks rules disk root) else pure false

end Dialect
end Refit
