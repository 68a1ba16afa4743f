import Refit.Files.Path
import Refit.Naming.Words
import Refit.Project.Model
import Refit.Run.Options

namespace Refit.Output

/-- The paths that were given out, and for each requested path the last number that was used. -/
structure Names where
  taken : List String
  counts : List (String × Nat)

namespace Names

def empty : Names := ⟨[], []⟩

def numbered (path : Path) (n : Nat) : Path :=
  path.withName (path.stem ++ "-" ++ toString n ++ path.suffix)

/-- The first number from `n` on whose path is free. Among more numbers than there are taken paths
    one is free, which bounds the search. -/
def firstFree (taken : List String) (path : Path) : Nat → Nat → Nat
  | 0, n => n
  | fuel + 1, n =>
    if taken.contains (numbered path n).toString then firstFree taken path fuel (n + 1) else n

/-- Gives out a path for a requested one, and tells whether it had to be renamed. A path without a
    name cannot be renamed. -/
def claim (names : Names) (path : Path) : Option (Path × Bool) × Names :=
  let key := path.toString
  if !names.taken.contains key then (some (path, false), { names with taken := key :: names.taken })
  else if path.names.isEmpty then (none, names)
  else
    let last := (Json.lookup names.counts key).getD 1
    let n := firstFree names.taken path names.taken.length (last + 1)
    let found := numbered path n
    (some (found, true),
      { taken := found.toString :: names.taken, counts := Json.insert names.counts key n })

end Names

def pageRoot (platform : Platform) : String :=
  if platform = .nextjs then "pages" else "src/pages"

def directories (platform : Platform) : List String :=
  ["src", "src/components", pageRoot platform, "src/styles", "src/utils", "src/hooks", "src/types",
   "src/locales", "public", "docs"]

def isTyped (analysis : Analysis) (options : Options) : Bool :=
  analysis.isTypescript || options.convertToTypescript

def markupExtension (typed : Bool) : String := if typed then ".tsx" else ".jsx"

def scriptExtension (typed : Bool) : String := if typed then ".ts" else ".js"

def pageBase (name : String) : String :=
  let base := Naming.pascal name
  if base.isEmpty then "Index" else base

def pageIdentifier (name : String) : String := pageBase name ++ "Page"

def under (base : Path) (texts : List String) : Path :=
  texts.foldl (fun path text => path.join (Path.ofString text)) base

def nesting (component : Component) (analysis : Analysis) : List String :=
  ((Path.ofString component.path).parent.relativeTo? (Path.ofString analysis.layout.componentsDir)).getD []

def componentPath (root : Path) (component : Component) (analysis : Analysis) (options : Options) : Path :=
  let typed := isTyped analysis options
  if component.kind = .hook then
    under root ["src", "hooks", component.name ++ scriptExtension typed]
  else
    let directory := under root ["src", "components"]
    let nested := if options.preserveStructure then directory.below (nesting component analysis) else directory
    under nested [component.name ++ markupExtension typed]

def routeFile (segment : String) : String :=
  match segment.toList with
  | ['*'] => "[...all]"
  | ':' :: name =>
    if name.getLast? = some '*' then "[..." ++ String.ofList name.dropLast ++ "]"
    else "[" ++ String.ofList name ++ "]"
  | _ => segment

def routeSegments (route : String) : List String := (Text.split '/' route).filter (· ≠ "")

def pagePath (root : Path) (page : Page) (analysis : Analysis) (options : Options) : Path :=
  let extension := markupExtension (isTyped analysis options)
  if options.platform = .nextjs then
    let segments := (routeSegments page.route).map routeFile
    let leaf := segments.getLast?.getD "index"
    under root ("pages" :: segments.dropLast ++ [leaf ++ extension])
  else under root ["src", "pages", pageIdentifier page.name ++ extension]

def afterDot (name : String) : String := String.ofList ((name.toList.dropWhile (· ≠ '.')).drop 1)

/-- A test or story stands beside its component. A file from a directory of tests gets the mark of
    a test. -/
def companionPath (component : Path) (companion : String) : Path :=
  let name := (Path.ofString companion).name
  let ending := if FileKind.hasMark name then afterDot name else "test." ++ afterDot name
  under component.parent [component.stem ++ "." ++ ending]

def isPublic (asset : Asset) (publicDir : Option String) : Bool :=
  match publicDir with
  | some directory => !directory.isEmpty && (Path.ofString asset.path).parts.head? = some directory
  | none => false

/-- Where an asset goes: public files stay public, all others become assets of the sources. -/
def assetPath (root : Path) (asset : Asset) (publicDir : Option String) : Path :=
  let base := if isPublic asset publicDir then under root ["public"] else under root ["src", "assets"]
  base.join (Path.ofString asset.name)

end Refit.Output
