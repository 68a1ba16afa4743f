import Refit.Text.Quoted
import Refit.Text.Search

namespace Refit

inductive PathRoot where
  | relative
  | slash
  | doubleSlash
  deriving DecidableEq, Repr

def PathRoot.text : PathRoot → String
  | relative => ""
  | slash => "/"
  | doubleSlash => "//"

structure Path where
  root : PathRoot
  names : List String
  deriving DecidableEq

namespace Path

def rootOf : List Char → PathRoot
  | '/' :: '/' :: '/' :: _ => .slash
  | '/' :: '/' :: _ => .doubleSlash
  | '/' :: _ => .slash
  | _ => .relative

def ofString (text : String) : Path :=
  ⟨rootOf text.toList, (Text.split '/' text).filter (fun name => name ≠ "" && name ≠ ".")⟩

def isAbsolute (path : Path) : Bool := path.root ≠ .relative

def plainText (path : Path) : String := path.root.text ++ String.intercalate "/" path.names

def toString (path : Path) : String :=
  if path.root = .relative && path.names.isEmpty then "." else path.plainText

/-- The last name; a path without names has an empty one. -/
def name (path : Path) : String := path.names.getLast?.getD ""

/-- The parts of a path; a root counts as one. -/
def parts (path : Path) : List String :=
  if path.isAbsolute then path.root.text :: path.names else path.names

def parent (path : Path) : Path := { path with names := path.names.dropLast }

def join (base path : Path) : Path :=
  if path.isAbsolute then path else { base with names := base.names ++ path.names }

def child (path : Path) (name : String) : Path := { path with names := path.names ++ [name] }

def below (path : Path) (names : List String) : Path := { path with names := path.names ++ names }

def withName (path : Path) (name : String) : Path := path.parent.child name

def relativeTo? (path base : Path) : Option (List String) :=
  if path.root = base.root && base.names.isPrefixOf path.names then
    some (path.names.drop base.names.length)
  else none

def ofNames (names : List String) : String := Path.toString ⟨.relative, names⟩

def lastDot (name : List Char) : Option Nat :=
  let ending := name.reverse.takeWhile (· ≠ '.')
  let position := name.length - ending.length - 1
  if ending.length < name.length && 0 < position && !ending.isEmpty then some position else none

def suffixOf (name : String) : String :=
  match lastDot name.toList with
  | some position => String.ofList (name.toList.drop position)
  | none => ""

def stemOf (name : String) : String :=
  match lastDot name.toList with
  | some position => String.ofList (name.toList.take position)
  | none => name

def suffix (path : Path) : String := suffixOf path.name

def stem (path : Path) : String := stemOf path.name

end Path

structure OutsideFault where
  path : Path
  base : Path
  deriving DecidableEq

def OutsideFault.message (fault : OutsideFault) : String :=
  Text.Quoted.encode fault.path.toString ++ " is not in the subpath of "
    ++ Text.Quoted.encode fault.base.plainText
    ++ " OR one path is relative and the other is absolute."

namespace FileKind

def sourceExtensions : List String := [".js", ".jsx", ".ts", ".tsx"]

def styleExtensions : List String := [".css", ".scss", ".less"]

def companionMarks : List String := [".test.", ".spec.", ".stories.", ".story."]

def hasMark (name : String) : Bool := companionMarks.any (Text.contains name ·)

def testsDirectory : String := "__tests__"

/-- Whether a file accompanies a component: by a mark in its name, or by a directory of tests above
    it. Only directories below the base count when one is given. -/
def isCompanion (path : Path) (base : Option Path) : Except OutsideFault Bool :=
  if hasMark path.name then .ok true
  else
    match base with
    | none => .ok (path.parts.dropLast.contains testsDirectory)
    | some base =>
      match path.relativeTo? base with
      | some names => .ok (names.dropLast.contains testsDirectory)
      | none => .error ⟨path, base⟩

inductive Asset where
  | image
  | font
  | video
  | audio
  | document
  deriving DecidableEq

def Asset.text : Asset → String
  | image => "image"
  | font => "font"
  | video => "video"
  | audio => "audio"
  | document => "document"

def Asset.suffixes : Asset → List String
  | image => [".jpg", ".jpeg", ".png", ".gif", ".svg", ".webp", ".ico", ".avif"]
  | font => [".woff", ".woff2", ".ttf", ".otf", ".eot"]
  | video => [".mp4", ".webm", ".avi", ".mov"]
  | audio => [".mp3", ".wav", ".ogg"]
  | document => []

def assetOf (file : Path) : Asset :=
  let suffix := Text.lower file.suffix
  ([.image, .font, .video, .audio].find? (fun kind : Asset => kind.suffixes.contains suffix)).getD .document

end FileKind
end Refit
