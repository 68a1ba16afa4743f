import Refit.Syntax.Grammar.Symbol

/-!
Expressions, with the names that they bind and the markup inside of them. An expression is an operand
followed by suffixes and operators; levels order the operators, a higher level binding more tightly.
-/

namespace Refit.Syntax.Grammar

open Rule

namespace Bindings

def place : GrammarRule :=
  chain operandName
    (wrap .memberExpression (some .object)
        ((operator "." <|> .lexeme (.node .optionalChain) false Scanner.chainMark) ++
          field .property (privateName <|> name .propertyIdentifier))
      <|> wrap .subscriptExpression (some .object)
        (mark "[" ++ field .index (ref (.expressions .inner)) ++ mark "]")
      <|> wrap .nonNullExpression none (operator "!"))

def rest : GrammarRule := node .restPattern (mark "..." ++ (ref .destructuring <|> place))

def pattern : GrammarRule := rest <|> ref .destructuring <|> place

def element : GrammarRule :=
  chain (ref .pattern)
    (wrap .assignmentPattern (some .left) (operator "=" ++ field .right inside))

def pair : GrammarRule :=
  node .pairPattern (field .key propertyName ++ mark ":" ++ field .value element)

def shorthand : GrammarRule := name .shorthandPropertyIdentifierPattern

def defaulted : GrammarRule :=
  node .objectAssignmentPattern
    (field .left (shorthand <|> ref .destructuring) ++ operator "=" ++ field .right inside)

def destructuring : GrammarRule :=
  node .objectPattern
      (mark "\x7b" ++ slots (pair <|> rest <|> defaulted <|> shorthand) ++ mark "\x7d")
    <|> node .arrayPattern (mark "[" ++ slots element ++ mark "]")

def beginsParameter : Scanner
  | c :: _ => if isNameStart c || ['\x7b', '[', '\\'].contains c then some 0 else none
  | [] => none

def parameterName : GrammarRule :=
  many (field .decorator (ref .decorator)) ++
    maybe (accessibility ++ before beginsParameter) ++
    maybe (wordAs .overrideModifier "override" ++ before beginsParameter) ++
    maybe (word "readonly" ++ before beginsParameter) ++
    field .pattern (wordAs .thisValue "this" <|> ref .pattern)

def parameter : GrammarRule :=
  node .optionalParameter
      (parameterName ++ mark "?" ++ optionalType false ++ maybe (initializer .inner))
    <|> node .requiredParameter (parameterName ++ optionalType false ++ maybe (initializer .inner))

def parameters : GrammarRule :=
  node .formalParameters (mark "(" ++ maybe (commas parameter ++ maybe (mark ",")) ++ mark ")")

end Bindings

namespace Markup

def hyphenated (category : Category) : GrammarRule :=
  .lexeme (.node category) false (Scanner.longer Scanner.hyphenatedName Scanner.name)

def namespaced : GrammarRule :=
  node .jsxNamespaceName (hyphenated .identifier ++ mark ":" ++ hyphenated .identifier)

def qualified : GrammarRule :=
  chain identifier
    (wrap .memberExpression (some .object) (mark "." ++ field .property (name .propertyIdentifier)))

def plainName : GrammarRule := notBefore Scanner.hyphenatedName ++ qualified

def tagName : GrammarRule := namespaced <|> plainName <|> hyphenated .identifier

def container : GrammarRule :=
  node .jsxExpression
    (mark "\x7b" ++
      maybe (node .spreadElement (mark "..." ++ inside) <|> ref (.expressions .inner)) ++ mark "\x7d")

def tagAttribute : GrammarRule :=
  node .jsxAttribute
    ((namespaced <|> hyphenated .propertyIdentifier) ++
      maybe (mark "=" ++
        (.lexeme (.node .string) false Scanner.attributeString <|> container <|> ref .element)))

def opening : GrammarRule :=
  mark "<" ++
    maybe ((field .name namespaced
        <|> field .name plainName ++ maybe (field .typeArguments (ref .typeArguments))
        <|> field .name (hyphenated .identifier))
      ++ many (field .attribute (tagAttribute <|> container)))

def closing : GrammarRule :=
  node .jsxClosingElement (mark "</" ++ maybe (field .name tagName) ++ mark ">")

def child : GrammarRule :=
  .lexeme (.node .jsxText) true Scanner.markupText
    <|> .lexeme (.node .comment) false Scanner.markupComment
    <|> .lexeme (.node .htmlCharacterReference) false Scanner.characterReference
    <|> notBefore (Scanner.fixed ['<', '/']) ++ ref .element
    <|> container

/-- An element: what it opens with, and either a closing mark at once or children and a closing
tag, whatever name that has. -/
def element : GrammarRule :=
  only [.jsxElement, .jsxSelfClosingElement]
    (chain opening
      (leftIs true [.jsxOpeningElement] ++
          wrap .jsxElement (some .openTag) (many child ++ field .closeTag closing)
        <|> leftIs false [.jsxOpeningElement, .jsxSelfClosingElement, .jsxElement] ++
          (wrap .jsxSelfClosingElement none (mark "/>") <|> wrap .jsxOpeningElement none (mark ">"))))

end Markup

/-- Plain source has type assertions where source with markup has elements. -/
inductive Dialect
  | plain
  | markup
  deriving DecidableEq

namespace Expressions

def arguments : GrammarRule :=
  let spread := node .spreadElement (mark "..." ++ inside)
  node .arguments (mark "(" ++ slots (spread <|> inside) ++ mark ")")

def template : GrammarRule :=
  node .templateString
    (mark "`"
      ++ many (.lexeme (.node .stringFragment) true Scanner.templateText
        <|> .lexeme (.node .escapeSequence) true Scanner.escape
        <|> node .templateSubstitution
            (gluedMark "$\x7b" ++ ref (.expressions .inner) ++ mark "\x7d"))
      ++ gluedMark "`")

def regex : GrammarRule := .lexeme (.node .regex) false Scanner.regex

def method : GrammarRule :=
  node .methodDefinition
    (memberAccessibility ++ memberModifier "static" ++ memberOverride ++ memberModifier "readonly" ++
      memberModifier "async" ++ memberForm ++ field .name propertyName ++ maybe (mark "?") ++
      callSignature false ++ field .body block)

def pair : GrammarRule := node .pair (field .key propertyName ++ mark ":" ++ field .value inside)

def spread : GrammarRule := node .spreadElement (mark "..." ++ inside)

def object : GrammarRule :=
  node .object
    (mark "\x7b" ++ slots (pair <|> spread <|> method <|> name .shorthandPropertyIdentifier) ++
      mark "\x7d")

def array : GrammarRule := node .array (mark "[" ++ slots (spread <|> inside) ++ mark "]")

/-- Values taken apart into several places at once. -/
def destructuringAssignment (place : Place) : GrammarRule :=
  node .assignmentExpression
    (field .left (ref .destructuring) ++ operator "=" ++ field .right (ref (.expression place 0)))

def namedFunction (category : Category) (star : GrammarRule) : GrammarRule :=
  node category
    (maybe (word "async") ++ word "function" ++ star ++ maybe (field .name identifier) ++
      callSignature false ++ field .body block)

def function : GrammarRule :=
  namedFunction .generatorFunction (mark "*") <|> namedFunction .functionExpression .empty

def className : GrammarRule := field .name (nameExcept .typeIdentifier ["extends", "implements"])

def heritage : GrammarRule :=
  let single := field .value (ref (.expression .inner 14)) ++
    maybe (field .typeArguments (ref .typeArguments))
  let extending := node .extendsClause (word "extends" ++ commas single)
  let implementing := node .implementsClause (word "implements" ++ commas anyType)
  node .classHeritage (extending ++ maybe implementing <|> implementing)

def classRest (heading : GrammarRule) : GrammarRule :=
  heading ++ typeParameters ++ maybe heritage ++ field .body (ref .classBody)

def classExpression : GrammarRule :=
  node .classExpression
    (many (field .decorator (ref .decorator)) ++ word "class" ++ classRest (maybe className))

def arrowBody (place : Place) : GrammarRule :=
  mark "=>" ++ field .body (block <|> ref (.expression place 0))

def beginsParameterList : Scanner := fun text =>
  match text with
  | '(' :: _ => some 0
  | '<' :: _ => some 0
  | _ => Scanner.word "async" text

/-- A function written with an arrow. In the first branch of a conditional a colon after the
parameters gives a return type only if a second colon follows the body. -/
def arrow (place : Place) : GrammarRule :=
  let single := field .parameter operandName ++ arrowBody place
  let head := typeParameters ++ field .parameters (ref .parameters)
  let colon : GrammarRule := if place.branch then before (Scanner.fixed [':']) else .empty
  let listed := before beginsParameterList ++ maybe (word "async") ++ head ++
    (arrowBody place <|> returnType false ++ arrowBody place ++ colon)
  node .arrowFunction single
    <|> node .arrowFunction (word "async" ++ goesOn .operand ++ single)
    <|> node .arrowFunction listed

def parenthesized : GrammarRule :=
  node .parenthesizedExpression
    (mark "(" ++ ref (.expressions .inner) ++ optionalType false ++ mark ")")

def metaProperty : GrammarRule :=
  node .metaProperty (word "new" ++ mark "." ++ word "target")
    <|> node .metaProperty (word "import" ++ mark "." ++ word "meta")

def importWord : GrammarRule :=
  wordAs .importKeyword "import" ++
    before (fun text => match text with
      | '(' :: _ => some 0
      | '.' :: _ => some 0
      | '<' :: _ => some 0
      | _ => none)

def constants : GrammarRule :=
  wordAs .thisValue "this" <|> wordAs .superValue "super" <|> wordAs .trueValue "true"
    <|> wordAs .falseValue "false" <|> wordAs .nullValue "null"
    <|> wordAs .undefinedValue "undefined"

def memberName : GrammarRule := field .property (privateName <|> name .propertyIdentifier)

def chainMark : GrammarRule := .lexeme (.node .optionalChain) false Scanner.chainMark

def member : GrammarRule :=
  wrap .memberExpression (some .object) ((operator "." <|> chainMark) ++ memberName)

def subscript : GrammarRule :=
  wrap .subscriptExpression (some .object)
    (maybe chainMark ++ mark "[" ++ field .index (ref (.expressions .inner)) ++ mark "]")

def nonNull : GrammarRule := wrap .nonNullExpression none (operator "!")

def typeArguments : GrammarRule := field .typeArguments (ref .typeArguments)

def construction : GrammarRule :=
  let base := metaProperty <|> constants <|> function <|> classExpression <|> parenthesized
    <|> string <|> number <|> ref .template <|> regex <|> object <|> array <|> operandName
  node .newExpression
    (word "new" ++ field .callee (chain base (member <|> subscript <|> nonNull)) ++
      maybe typeArguments ++ maybe (field .arguments (ref .arguments)))

def unaryLevel : Nat := 14

def unary (place : Place) : GrammarRule :=
  let marks := oneOf (["!", "~", "-", "+"].map mark ++ ["typeof", "void", "delete"].map word)
  let argument := field .argument (ref (.expression place unaryLevel))
  node .updateExpression (field .operator (mark "++" <|> mark "--") ++ argument)
    <|> node .unaryExpression (field .operator marks ++ argument)
    <|> node .awaitExpression (word "await" ++ ref (.expression place unaryLevel))

def yielding (place : Place) : GrammarRule :=
  let unbroken : GrammarRule := if place.breaks then goesOn .operand else .empty
  node .yieldExpression
    (word "yield" ++
      (mark "*" ++ ref (.expression place 0) <|> unbroken ++ ref (.expression place 0) <|> .empty))

def privateOperand : GrammarRule := privateName ++ before (Scanner.word "in")

def bracketed (dialect : Dialect) (place : Place) : GrammarRule :=
  match dialect with
  | .markup => ref .element
  | .plain => node .typeAssertion (ref .typeArguments ++ ref (.expression place unaryLevel))

def operand (dialect : Dialect) (place : Place) : GrammarRule :=
  arrow place
    <|> unary place
    <|> yielding place
    <|> metaProperty
    <|> construction
    <|> function
    <|> classExpression
    <|> importWord
    <|> constants
    <|> parenthesized
    <|> string
    <|> number
    <|> ref .template
    <|> regex
    <|> destructuringAssignment place
    <|> object
    <|> array
    <|> bracketed dialect place
    <|> privateOperand
    <|> operandName

def beginsOperand : Scanner
  | '!' :: '=' :: _ => none
  | c :: _ =>
    let isMark := ['"', '\'', '\x60', '(', '[', '\x7b', '!', '~', '+', '-', '<', '/', '@', '#', '\\'].contains c
    if isNameStart c || isDigit c || isMark then some 0 else none
  | [] => none

def call : GrammarRule :=
  wrap .callExpression (some .function) (maybe typeArguments ++ field .arguments (ref .arguments))
    <|> wrap .callExpression (some .function)
        (maybe typeArguments ++ field .arguments (ref .template))
    <|> wrap .callExpression (some .function)
        (.lexeme (.token "?.") false Scanner.chainMark ++ maybe typeArguments ++
          field .arguments (ref .arguments))

def instantiation : GrammarRule :=
  wrap .instantiationExpression none (typeArguments ++ notBefore beginsOperand)

def update : GrammarRule :=
  wrap .updateExpression (some .argument) (field .operator (mark "++" <|> mark "--"))

def assignable : List Category :=
  [.identifier, .memberExpression, .subscriptExpression, .nonNullExpression, .parenthesizedExpression,
   .undefinedValue]

def assignment (place : Place) : GrammarRule :=
  let marks := ["+=", "-=", "*=", "/=", "%=", "^=", "&=", "|=", ">>=", ">>>=", "<<=", "**=", "&&=",
    "||=", "??="].map operator
  let value := field .right (ref (.expression place 0))
  leftIs true assignable ++
    (wrap .assignmentExpression (some .left) (operator "=" ++ value)
      <|> wrap .augmentedAssignmentExpression (some .left) (field .operator (oneOf marks) ++ value))

def conditional (place : Place) : GrammarRule :=
  wrap .ternaryExpression (some .condition)
    (.lexeme (.token "?") false Scanner.conditionalMark ++
      field .consequence (ref (.expression ⟨false, true⟩ 0)) ++ mark ":" ++
      field .alternative (ref (.expression place 1)))

/-- The binary operators with their levels; all but the power associate to the left. -/
def binaryOperators : List (Nat × GrammarRule) :=
  let marks : Nat → List String → List (Nat × GrammarRule) := fun level texts =>
    texts.map (fun text => (level, operator text))
  marks 1 ["??"] ++ marks 2 ["||"] ++ marks 3 ["&&"] ++ marks 4 ["|"] ++ marks 5 ["^"] ++
    marks 6 ["&"] ++ marks 7 ["===", "!==", "==", "!="] ++ marks 8 ["<", "<=", ">", ">="] ++
    [(8, word "instanceof"), (8, word "in")] ++ marks 10 [">>>", ">>", "<<"] ++
    marks 11 ["+", "-"] ++ marks 12 ["*", "/", "%"]

def binary (place : Place) (level : Nat) : GrammarRule :=
  let step := fun (operator : GrammarRule) (next : Nat) =>
    wrap .binaryExpression (some .left)
      (field .operator operator ++ field .right (ref (.expression place next)))
  let fitting := binaryOperators.filter (fun entry => level ≤ entry.1)
  oneOf (fitting.map (fun entry => step entry.2 (entry.1 + 1)) ++
    (if level ≤ 13 then [step (operator "**") 13] else []))

def typed : GrammarRule :=
  wrap .asExpression none (word "as" ++ (word "const" <|> anyType))
    <|> wrap .satisfiesExpression none (word "satisfies" ++ anyType)

def expression (place : Place) (level : Nat) : GrammarRule :=
  let unbroken : GrammarRule := if place.breaks then goesOn .operand else .empty
  let low : GrammarRule :=
    (if level ≤ 1 then conditional place else oneOf [])
      <|> binary place level
      <|> (if level ≤ 8 then typed else oneOf [])
  chain (ref (.operand place))
    (unbroken ++
      (member <|> call <|> subscript <|> instantiation <|> nonNull <|> update <|> assignment place <|> low))

def expressions (place : Place) : GrammarRule :=
  chain (ref (.expression place 0))
    (wrap .sequenceExpression none (mark "," ++ ref (.expression place 0)))

end Expressions
end Refit.Syntax.Grammar
