import Refit.Source.Basic
import Refit.Text.Search

namespace Refit

open Syntax

structure ImportBinding where
  imported : String
  localName : String
  deriving DecidableEq

structure ImportDecl where
  moduleName : String
  span : Span
  text : String
  defaultName : Option String
  named : List ImportBinding
  namespaceName : Option String
  typeOnly : Bool
  deriving DecidableEq

namespace Source

def isQuote (c : Char) : Bool := c = '\'' || c = '"' || c = '\x60'

def unquote (text : String) : String := String.ofList (Text.trimChars isQuote text.toList)

def nonEmpty (text : String) : Option String := if text.isEmpty then none else some text

def bindingOf (source : Source) (specifier : Node) : ImportBinding :=
  let imported := source.textOf? (specifier.child? .name)
  ⟨imported, (nonEmpty (source.textOf? (specifier.child? .localName))).getD imported⟩

def importOf (source : Source) (statement : Node) : ImportDecl :=
  let clauses := statement.namedChildren.filter (·.isCategory .importClause)
  let parts := clauses.flatMap (·.namedChildren)
  let named := parts.filter (·.isCategory .namedImports)
  let specifiers := (named.flatMap (·.namedChildren)).filter (·.isCategory .importSpecifier)
  let spaces := parts.filter (·.isCategory .namespaceImport)
  { moduleName := unquote (source.textOf? (statement.child? .source))
    span := statement.span
    text := source.textOf statement
    defaultName := (parts.filter (·.isCategory .identifier)).getLast?.map source.textOf
    named := specifiers.map source.bindingOf
    namespaceName := match spaces.getLast? with
      | some space => nonEmpty (source.textOf? (space.namedChildren.find? (·.isCategory .identifier)))
      | none => none
    typeOnly := statement.children.any (·.isToken "type") }

def imports (source : Source) : List ImportDecl :=
  (source.tree.namedChildren.filter (·.isCategory .importStatement)).map source.importOf

end Source

structure HookCall where
  name : String
  span : Span
  deriving DecidableEq

structure ElementRef where
  name : String
  opening : Span
  closing : Option Span
  deriving DecidableEq

namespace Source

/-- `use` alone, or followed by an upper-case letter, a digit or an underscore and any word. -/
def isHookName (name : String) : Bool :=
  match name.toList with
  | 'u' :: 's' :: 'e' :: rest =>
    match rest with
    | [] => true
    | c :: word => (c.isUpper || c.isDigit || c = '_') && word.all Text.isWordChar
  | _ => false

def hookCallOf (source : Source) (node : Node) : Option HookCall :=
  if node.isCategory .callExpression then
    match node.child? .function with
    | some callee =>
      if callee.isCategory .identifier && isHookName (source.textOf callee) then
        some ⟨source.textOf callee, callee.span⟩
      else none
    | none => none
  else none

def hookCalls (source : Source) : List HookCall := source.nodes.filterMap source.hookCallOf

def tagName (tag : Option Node) : Option Node := tag.bind (·.child? .name)

def elementOf (source : Source) (node : Node) : Option ElementRef :=
  if node.isCategory .jsxElement then
    (tagName (node.firstOf? .jsxOpeningElement)).map (fun name =>
      ⟨source.textOf name, name.span, (tagName (node.firstOf? .jsxClosingElement)).map (·.span)⟩)
  else if node.isCategory .jsxSelfClosingElement then
    (tagName (some node)).map (fun name => ⟨source.textOf name, name.span, none⟩)
  else none

def elements (source : Source) : List ElementRef := source.nodes.filterMap source.elementOf

def distinct {α : Type} [BEq α] (items : List α) : List α :=
  items.foldl (fun seen item => if seen.contains item then seen else seen ++ [item]) []

def isComponentName (name : String) : Bool :=
  match name.toList with
  | c :: _ => Text.isUppercase c
  | [] => false

def componentElements (source : Source) : List String :=
  distinct ((source.elements.map (·.name)).filter isComponentName)

def branchCategories : List Category :=
  [.ifStatement, .ternaryExpression, .forStatement, .forInStatement, .whileStatement, .doStatement,
   .switchCase, .catchClause]

def isLogicalOperator (node : Node) : Bool :=
  node.isToken "&&" || node.isToken "||" || node.isToken "??"

def branches (node : Node) : Bool :=
  branchCategories.any node.isCategory ||
    (node.isCategory .binaryExpression && (node.child? .operator).any isLogicalOperator)

def complexityCeiling : Nat := 10

def complexity (source : Source) : Nat :=
  min (1 + source.nodes.countP branches) complexityCeiling

def classComponentOf (source : Source) (node : Node) : Option String :=
  if node.isCategory .classDeclaration || node.isCategory .classExpression then
    match node.firstOf? .classHeritage with
    | some heritage =>
      let name := source.textOf? (node.child? .name)
      if Text.contains (source.textOf heritage) "Component" && !name.isEmpty then some name
      else none
    | none => none
  else none

def classComponents (source : Source) : List String := source.nodes.filterMap source.classComponentOf

def stateHooks : List String := ["useState", "useReducer"]

def hasState (source : Source) : Bool := source.hookCalls.any (fun call => stateHooks.contains call.name)

end Source
end Refit
