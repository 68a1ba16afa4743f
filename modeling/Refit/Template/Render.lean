import Refit.Naming.Words
import Refit.Text.Search

namespace Refit

inductive Template.Expr where
  | var (name : String)
  | literal (text : String)
  | field (record : Expr) (name : String)
  | item (list : Expr) (index : Nat)
  | isText (value : Expr) (text : String)
  | isAmong (value : Expr) (texts : List String)
  | not (value : Expr)
  | and (left right : Expr)
  | or (left right : Expr)
  | choose (condition whenTrue whenFalse : Expr)
  | join (separator : String) (list : Expr)
  | count (list : Expr)
  | pascal (value : Expr)
  | childText (value : Expr)
  | attributeValue (value : Expr)

inductive Template.Piece where
  | text (text : String)
  | emit (value : Expr)
  | choice (condition : Expr) (whenTrue whenFalse : List Piece)
  | each (name : String) (list : Expr) (body : List Piece)
  | insert (template : String)

def Template.Piece.lines (lines : List String) : Piece := .text (String.join (lines.map (· ++ "\n")))

def Template.Piece.when (condition : Expr) (body : List Piece) : Piece := .choice condition body []

def Template.Piece.newline : Piece := .text "\n"

abbrev Template := List Template.Piece

inductive TemplateFault where
  | undefined (name : String)
  | noField (owner name : String)
  | noItem (owner : String) (index : Nat)
  | badValue (message : String)
  | unknown (template : String) (places : List String)
  | misplaced (template : String)
  deriving DecidableEq

def TemplateFault.message : TemplateFault → String
  | undefined name => Text.Quoted.encode name ++ " is undefined"
  | noField owner name =>
    Text.Quoted.encode owner ++ " has no attribute " ++ Text.Quoted.encode name
  | noItem owner index => owner ++ " has no element " ++ toString index
  | badValue message => message
  | unknown template places =>
    Text.Quoted.encode template ++ " not found in search " ++ (if places.length = 1 then "path" else "paths")
      ++ ": " ++ String.intercalate ", " (places.map Text.Quoted.encode)
  | misplaced template => template

namespace Template

abbrev Context := List (String × Json.Value)

def ownerName : Json.Value → String
  | .null => "None"
  | value => Json.typeName value ++ " object"

def isString : Json.Value → String → Bool
  | .string value, text => value = text
  | _, _ => false

def itemsOf : Json.Value → Except TemplateFault (List Json.Value)
  | .array items => .ok items
  | .string text => .ok (text.toList.map (fun c => .string (String.singleton c)))
  | .object entries => .ok (entries.map (fun entry => .string entry.1))
  | value => .error (.badValue ("'" ++ Json.typeName value ++ "' object is not iterable"))

def countOf : Json.Value → Except TemplateFault Nat
  | .array items => .ok items.length
  | .string text => .ok text.length
  | .object entries => .ok entries.length
  | value => .error (.badValue ("object of type '" ++ Json.typeName value ++ "' has no len()"))

def notText (found : String) : TemplateFault :=
  .badValue ("expected string or bytes-like object, got '" ++ found ++ "'")

/-- The text that a pattern is searched in. A variable without a value is no text. -/
def searchedText : Except TemplateFault Json.Value → Except TemplateFault String
  | .ok (.string text) => .ok text
  | .ok value => .error (notText (Json.typeName value))
  | .error (.undefined _) => .error (notText "StrictUndefined")
  | .error fault => .error fault

def fieldOf (record : Json.Value) (name : String) : Except TemplateFault Json.Value :=
  match record.get? name with
  | some value => .ok value
  | none => .error (.noField (ownerName record) name)

def itemOf (list : Json.Value) (index : Nat) : Except TemplateFault Json.Value :=
  let found :=
    match list with
    | .array items => items[index]?
    | .string text => (text.toList[index]?).map (fun c => .string (String.singleton c))
    | _ => none
  match found with
  | some value => .ok value
  | none => .error (.noItem (ownerName list) index)

def eval (context : Context) : Expr → Except TemplateFault Json.Value
  | .var name =>
    match Json.lookup context name with
    | some value => .ok value
    | none => .error (.undefined name)
  | .literal text => .ok (.string text)
  | .field record name => do fieldOf (← eval context record) name
  | .item list index => do itemOf (← eval context list) index
  | .isText value text => do pure (.bool (isString (← eval context value) text))
  | .isAmong value texts => do
      let value ← eval context value
      pure (.bool (texts.any (isString value)))
  | .not value => do pure (.bool (!(← eval context value).isTrue))
  | .and left right => do
      let value ← eval context left
      if value.isTrue then eval context right else pure value
  | .or left right => do
      let value ← eval context left
      if value.isTrue then pure value else eval context right
  | .choose condition whenTrue whenFalse => do
      if (← eval context condition).isTrue then eval context whenTrue else eval context whenFalse
  | .join separator list => do
      let items ← itemsOf (← eval context list)
      pure (.string (String.intercalate separator (items.map Json.plain)))
  | .count list => do pure (.int (← countOf (← eval context list)))
  | .pascal value => do
      pure (.string (Naming.pascal (← searchedText (eval context value))))
  | .childText value => do
      pure (.string (Naming.childText (← searchedText (eval context value))))
  | .attributeValue value => do
      match ← eval context value with
      | .string text => pure (.string (Naming.attributeValue text))
      | value => throw (.badValue ("argument of type '" ++ Json.typeName value ++ "' is not iterable"))

def bindItem (context : Context) (name : String) (value : Json.Value) (isLast : Bool) : Context :=
  (name, value) :: ("loop", .object [("last", .bool isLast)]) :: context

def loopOver (body : Json.Value → Bool → Except TemplateFault String) :
    List Json.Value → Except TemplateFault String
  | [] => .ok ""
  | item :: rest => do
      let head ← body item rest.isEmpty
      let tail ← loopOver body rest
      pure (head ++ tail)

mutual

/-- Renders a part of a template. The first argument renders inserted templates. -/
def renderPiece (inserted : String → Context → Except TemplateFault String) (context : Context) :
    Piece → Except TemplateFault String
  | .text text => .ok text
  | .emit value => do pure (Json.plain (← eval context value))
  | .choice condition whenTrue whenFalse => do
      if (← eval context condition).isTrue then renderAll inserted context whenTrue
      else renderAll inserted context whenFalse
  | .each name list body => do
      let items ← itemsOf (← eval context list)
      loopOver (fun item isLast => renderAll inserted (bindItem context name item isLast) body) items
  | .insert template => inserted template context

def renderAll (inserted : String → Context → Except TemplateFault String) (context : Context) :
    List Piece → Except TemplateFault String
  | [] => .ok ""
  | piece :: rest => do
      let head ← renderPiece inserted context piece
      let tail ← renderAll inserted context rest
      pure (head ++ tail)

end

structure Library where
  templates : List (String × Template)
  places : List String

namespace Library

/-- The template of a name. Empty parts and single dots do not count; double dots are refused. -/
def find (library : Library) (name : String) : Except TemplateFault Template :=
  let parts := Text.split '/' name
  if parts.contains ".." then .error (.misplaced name)
  else
    let path := String.intercalate "/" (parts.filter (fun part => part ≠ "" && part ≠ "."))
    match Json.lookup library.templates path with
    | some template => .ok template
    | none => .error (.unknown name library.places)

def insertionDepth : Nat := 16

def renderTo (library : Library) : Nat → String → Context → Except TemplateFault String
  | 0, name, _ => .error (.unknown name library.places)
  | depth + 1, name, context => do
      let template ← library.find name
      renderAll (library.renderTo depth) context template

def render (library : Library) (name : String) (context : Context) : Except TemplateFault String :=
  library.renderTo insertionDepth name context

def override (library : Library) (place : String) (texts : List (String × String)) : Library :=
  { templates := texts.map (fun entry => (entry.1, [.text entry.2])) ++ library.templates
    places := place :: library.places }

end Library
end Template
end Refit
