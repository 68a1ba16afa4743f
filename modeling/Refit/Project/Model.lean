import Refit.Source.Props

namespace Refit

inductive ComponentKind where
  | functional
  | stateful
  | hook
  | other (name : String)
  deriving DecidableEq

def ComponentKind.text : ComponentKind → String
  | functional => "functional"
  | stateful => "class"
  | hook => "hook"
  | other name => name

def ComponentKind.ofText (text : String) : ComponentKind :=
  if text = "functional" then .functional
  else if text = "class" then .stateful
  else if text = "hook" then .hook
  else .other text

structure Component where
  name : String
  path : String
  kind : ComponentKind := .functional
  props : List ComponentProp := []
  dependencies : List String := []
  hasState : Bool := false
  hooks : List String := []
  complexity : Nat := 1
  tests : List String := []
  story : Option String := none

structure PageMeta where
  title : Option String := none
  description : Option String := none

structure Page where
  name : String
  path : String
  route : String
  components : List String := []
  hasLayout : Bool := false
  hasAuth : Bool := false
  dataFetching : Option String := none
  about : PageMeta := {}

structure Asset where
  name : String
  path : String
  type : String
  size : Nat
  used : Bool := false

structure StyleUse where
  type : String := "css"
  files : List String := []

structure StateUse where
  type : String := "none"
  files : List String := []

structure RouteUse where
  path : String
  component : String
  isProtected : Bool := false
  params : List String := []

structure RoutingUse where
  type : String := "none"
  routes : List RouteUse := []

structure TestUse where
  framework : String := "vitest"
  files : List String := []
  coverage : Bool := false
  endToEnd : Bool := false

structure Structure where
  sourceDir : String
  componentsDir : String
  pagesDir : Option String := none
  stylesDir : Option String := none
  assetsDir : Option String := none
  publicDir : Option String := none
  configFiles : List String := []
  hasTypescript : Bool := false
  hasTests : Bool := false

structure ExtractedText where
  key : String
  text : String
  file : String := ""
  line : Int := 0

structure Notice where
  file : String
  kind : String
  message : String
  suggestion : Option String := none

structure Analysis where
  root : String
  source : String
  framework : String
  language : String
  packageManager : String
  layout : Structure
  dependencies : List (String × String) := []
  devDependencies : List (String × String) := []
  components : List Component := []
  pages : List Page := []
  assets : List Asset := []
  configuration : List (String × Json.Value) := []
  buildTool : String := "vite"
  styling : StyleUse := {}
  stateManagement : Option StateUse := none
  routing : Option RoutingUse := none
  testing : Option TestUse := none
  texts : List ExtractedText := []
  notices : List Notice := []

def Analysis.isTypescript (analysis : Analysis) : Bool := analysis.language = "typescript"

/-- All dependencies; a development dependency counts over another one of the same name. -/
def Analysis.allDependencies (analysis : Analysis) : List (String × String) :=
  analysis.devDependencies.foldl (fun merged entry => Json.insert merged entry.1 entry.2)
    analysis.dependencies

end Refit
