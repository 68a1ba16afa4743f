import Refit.Text.Classes
import Refit.Text.Search

/-!
Routes of page files. The path of a page below its page directory is cut into segments at dots and
slashes that do not stand in brackets; each segment adds nothing, a fixed part or a parameter.
-/

namespace Refit.Route

inductive Segment where
  | fixed (text : String)
  | splat
  | parameter (name : String)
  | remainder (name : String)
  deriving DecidableEq

def Segment.text : Segment → String
  | fixed text => text
  | splat => "*"
  | parameter name => ":" ++ name
  | remainder name => ":" ++ name ++ "*"

def extensions : List String := [".js", ".jsx", ".ts", ".tsx"]

def dropExtension (path : String) : String :=
  match extensions.find? (Text.endsWith path ·) with
  | some extension => Text.dropSuffix extension path
  | none => path

def insideBrackets : List Char → Bool
  | [] => false
  | ']' :: _ => true
  | '[' :: _ => false
  | _ :: rest => insideBrackets rest

def rawSegments : List Char → List (List Char)
  | [] => [[]]
  | c :: rest =>
    if (c = '.' || c = '/') && !insideBrackets rest then [] :: rawSegments rest
    else
      match rawSegments rest with
      | segment :: others => (c :: segment) :: others
      | [] => [[c]]

/-- What stands between the brackets of a bracketed segment. One line break after the closing
    bracket is passed over. -/
def bracketed? (raw : List Char) : Option (List Char) :=
  match raw with
  | '[' :: rest =>
    let inner := rest.takeWhile (· ≠ ']')
    let ending := rest.dropWhile (· ≠ ']')
    if inner.isEmpty then none
    else if ending = [']'] || ending = [']', '\n'] then some inner
    else none
  | _ => none

def Segment.ofBrackets (inner : List Char) : Segment :=
  match inner with
  | '.' :: '.' :: '.' :: c :: name => remainder (String.ofList (c :: name))
  | name => parameter (String.ofList name)

def Segment.ofFixed (lowercase : Bool) (raw : List Char) : Segment :=
  let text := String.ofList (Text.dropEnd (· = '_') raw)
  fixed (if lowercase then Text.lower text else text)

def isGroup (raw : List Char) : Bool := raw.head? = some '(' && raw.getLast? = some ')'

/-- What a raw segment adds to a route. Index segments, groups and pathless layouts add nothing. -/
def Segment.ofRaw (lowercase : Bool) (raw : List Char) : Option Segment :=
  match raw with
  | [] => none
  | ['$'] => some splat
  | '$' :: name => some (parameter (String.ofList name))
  | '_' :: _ => none
  | _ =>
    if raw = "index".toList then none
    else
      match bracketed? raw with
      | some inner => some (ofBrackets inner)
      | none => if isGroup raw then none else some (ofFixed lowercase raw)

def segments (lowercase : Bool) (path : String) : List Segment :=
  (rawSegments (dropExtension (Text.replace "\\" "/" path)).toList).filterMap (Segment.ofRaw lowercase)

def ofSegments (segments : List Segment) : String :=
  "/" ++ String.intercalate "/" (segments.map Segment.text)

def ofPath (lowercase : Bool) (path : String) : String := ofSegments (segments lowercase path)

def parameter? (part : List Char) : Option String :=
  match part with
  | ':' :: name => some (String.ofList (Text.dropEnd (· = '*') name))
  | _ => none

def parameters (route : String) : List String :=
  (Text.splitChars (· = '/') route.toList).filterMap parameter?

end Refit.Route
