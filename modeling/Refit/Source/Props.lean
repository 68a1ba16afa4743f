import Refit.Json.Value
import Refit.Source.Basic

namespace Refit

open Syntax

structure ComponentProp where
  name : String
  type : String := "any"
  required : Bool := true
  defaultValue : Option String := none
  deriving DecidableEq

namespace Source

structure MemberType where
  text : String
  isOptional : Bool

abbrev Members := List (String × MemberType)

def memberOf (source : Source) (member : Node) : Option (String × MemberType) :=
  if member.isCategory .propertySignature then
    let name := source.textOf? (member.child? .name)
    let declared := (member.child? .type).bind (·.namedChildren.head?)
    let text := match declared with
      | some declared => source.textOf declared
      | none => "any"
    if name.isEmpty then none else some (name, ⟨text, member.children.any (·.isToken "?")⟩)
  else none

def membersOf (source : Source) (body : Node) : Members :=
  (body.namedChildren.filterMap source.memberOf).foldl
    (fun members (name, type) => Json.insert members name type) []

def typeDeclarationOf (source : Source) (node : Node) : Option (String × Members) :=
  let body :=
    if node.isCategory .interfaceDeclaration then node.child? .body
    else if node.isCategory .typeAliasDeclaration then node.child? .value
    else none
  let name := source.textOf? (node.child? .name)
  match body with
  | some body => if name.isEmpty then none else some (name, source.membersOf body)
  | none => none

/-- The object types that a source declares; a later declaration of a name replaces an earlier
one. -/
def declaredTypes (source : Source) : List (String × Members) :=
  (source.nodes.filterMap source.typeDeclarationOf).foldl
    (fun types (name, members) => Json.insert types name members) []

def isFunctionNode (node : Node) : Bool :=
  node.isCategory .arrowFunction || node.isCategory .functionExpression ||
    node.isCategory .functionDeclaration

mutual

def unwrapFunction : Node → Option Node
  | node@(.mk _ _ _ children) =>
    if isFunctionNode node then some node
    else if node.isCategory .callExpression then unwrapArguments children
    else none

def unwrapArguments : List Node → Option Node
  | [] => none
  | .mk _ field _ children :: rest =>
    if field = some .arguments then unwrapFirst children else unwrapArguments rest

def unwrapFirst : List Node → Option Node
  | [] => none
  | node :: rest =>
    match unwrapFunction node with
    | some found => some found
    | none => unwrapFirst rest

end

def isNameStart (c : Char) : Bool := c.isAlpha || c = '_' || c = '$'

def componentTypeHere (text : List Char) : Option String :=
  match text with
  | 'F' :: 'C' :: rest =>
    match rest.dropWhile Text.isBlank with
    | '<' :: rest =>
      match rest.dropWhile Text.isBlank with
      | c :: rest =>
        if isNameStart c then
          some (String.ofList (c :: rest.takeWhile (fun c => Text.isWordChar c || c = '$')))
        else none
      | [] => none
    | _ => none
  | _ => none

def componentType (afterWord : Bool) : List Char → Option String
  | [] => none
  | c :: rest =>
    match if afterWord then none else componentTypeHere (c :: rest) with
    | some name => some name
    | none => componentType (Text.isWordChar c) rest

/-- A function that may be the component: found by its name, with the type its name is given, or
exported by default. -/
inductive Candidate
  | named (function : Node) (propsType : Option String)
  | exported (function : Node)

def candidateOf (source : Source) (name : String) (node : Node) : Option Candidate :=
  if node.isCategory .functionDeclaration then
    if source.textOf? (node.child? .name) = name then some (.named node none) else none
  else if node.isCategory .variableDeclarator then
    if source.textOf? (node.child? .name) = name then
      let propsType := (node.child? .type).bind (fun type =>
        componentType false (source.textOf type).toList)
      ((node.child? .value).bind unwrapFunction).map (.named · propsType)
    else none
  else if node.isCategory .exportStatement && node.children.any (·.isToken "default") then
    (((node.child? .declaration).or (node.child? .value)).bind unwrapFunction).map .exported
  else none

/-- The function of a component and the name of its props type: the first function of that name,
or else the first default export. -/
def componentFunction (source : Source) (name : String) : Option (Node × Option String) :=
  let candidates := source.nodes.filterMap (source.candidateOf name)
  let named := candidates.findSome? (fun candidate => match candidate with
    | .named function propsType => some (function, propsType)
    | .exported _ => none)
  let exported := candidates.findSome? (fun candidate => match candidate with
    | .named _ _ => none
    | .exported function => some (function, none))
  named.or exported

/-- The first parameter of a function: what it binds, and its type annotation. -/
def firstParameter (function : Node) : Option Node × Option Node :=
  match function.child? .parameter with
  | some single => (some single, none)
  | none =>
    match (function.child? .parameters).bind (·.namedChildren.head?) with
    | none => (none, none)
    | some first =>
      if first.isCategory .requiredParameter || first.isCategory .optionalParameter then
        (first.child? .pattern, first.child? .type)
      else (some first, none)

def boundProp (source : Source) (entry : Node) : Option (String × Option String) :=
  let text := fun (node : Option Node) =>
    let text := source.textOf? node
    if text.isEmpty then none else some text
  if entry.isCategory .shorthandPropertyIdentifierPattern then some (source.textOf entry, none)
  else if entry.isCategory .objectAssignmentPattern then
    some (source.textOf? (entry.child? .left), text (entry.child? .right))
  else if entry.isCategory .pairPattern then
    let defaultValue := match entry.child? .value with
      | some value => if value.isCategory .assignmentPattern then text (value.child? .right) else none
      | none => none
    some (source.textOf? (entry.child? .key), defaultValue)
  else none

def propOf (members : Members) (name : String) (defaultValue : Option String) : ComponentProp :=
  let member := (Json.lookup members name).getD ⟨"any", false⟩
  { name, type := member.text, required := !member.isOptional && defaultValue.isNone, defaultValue }

def componentProps (source : Source) (name : String) : List ComponentProp :=
  match source.componentFunction name with
  | none => []
  | some (function, propsType) =>
    let (pattern, annotation) := firstParameter function
    let written := annotation.bind (·.namedChildren.head?)
    let inlineMembers := match written with
      | some type => if type.isCategory .objectType then source.membersOf type else []
      | none => []
    let typeName := match written with
      | some type => if type.isCategory .objectType then propsType else some (source.textOf type)
      | none => propsType
    let members :=
      if inlineMembers.isEmpty then
        match typeName with
        | some typeName => (Json.lookup source.declaredTypes typeName).getD []
        | none => []
      else inlineMembers
    match pattern with
    | none => []
    | some pattern =>
      if pattern.isCategory .objectPattern then
        (pattern.namedChildren.filterMap source.boundProp).map
          (fun (name, defaultValue) => propOf members name defaultValue)
      else members.map (fun (name, member) =>
        { name, type := member.text, required := !member.isOptional })

end Source
end Refit
