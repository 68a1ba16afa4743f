import Refit.Fault
import Refit.Json.Reader
import Refit.Source.Usage

/-!
Where the projects of one framework keep their files, the words that tell what a page does, and the
manifest that lists the packages. Directories are candidates; the first one that a project has is used.
-/

namespace Refit

structure Layout where
  source : String
  defaultFramework : String := "react"
  sourceDirs : List String := ["src"]
  componentDirs : List String := ["src/components", "components"]
  pageDirs : List String := ["src/pages", "pages"]
  styleDirs : List String := ["src/styles", "styles"]
  assetDirs : List String := ["src/assets", "assets"]
  publicDirs : List String := ["public"]
  testDirs : List String := ["__tests__", "tests", "test"]
  typescriptMarks : List String := ["tsconfig.json"]
  configFiles : List String := ["package.json", "tsconfig.json"]
  authMarks : List String := []
  layoutMarks : List String := ["Layout"]
  fetchingMarks : List (String × String) := []
  lowercaseRoutes : Bool := false

structure DetectionProfile where
  markerFiles : List String := []
  dependencies : List String := []
  layoutDirs : List String := []
  usageTokens : List String := []
  scanDirs : List String := ["src"]

abbrev Manifest := List (String × Json.Value)

namespace Manifest

def load (disk : Disk) (root : Path) : Except Fault Manifest := do
  let path := root.child "package.json"
  if !disk.exists? path then pure []
  else
    let text ← disk.readText path
    match Json.read text with
    | .ok (.object entries) => pure entries
    | .error ⟨.longInteger digits, _⟩ => throw (.longInteger digits)
    | _ => pure []

def dependencies (manifest : Manifest) (key : String) : List (String × String) :=
  match Json.lookup manifest key with
  | some (.object entries) => entries.map (fun entry => (entry.1, Json.plain entry.2))
  | _ => []

def packageNames (manifest : Manifest) : List String :=
  Source.distinct
    ((manifest.dependencies "dependencies" ++ manifest.dependencies "devDependencies").map (·.1))

def scripts (manifest : Manifest) : List (String × Json.Value) :=
  match Json.lookup manifest "scripts" with
  | some (.object entries) => entries
  | _ => []

end Manifest
end Refit
