/-!
Syntax trees of component sources. Every node covers a span of bytes of the source text; children
stand in source order inside their parent. Keywords and punctuation are nodes too, so a question
such as "does this member carry a question mark" is a question about children.
-/

namespace Refit.Syntax

structure Span where
  start : Nat
  stop : Nat
  deriving DecidableEq

inductive Category
  | program | hashBang | comment
  | importStatement | importClause | namespaceImport | namedImports | importSpecifier
  | importRequireClause | importAttribute | importAlias
  | exportStatement | exportClause | exportSpecifier | namespaceExport
  | statementBlock | expressionStatement | emptyStatement | labeledStatement | debuggerStatement
  | variableDeclaration | lexicalDeclaration | variableDeclarator
  | ifStatement | elseClause | switchStatement | switchBody | switchCase | switchDefault
  | forStatement | forInStatement | whileStatement | doStatement
  | tryStatement | catchClause | finallyClause | withStatement
  | breakStatement | continueStatement | returnStatement | throwStatement
  | functionDeclaration | generatorFunctionDeclaration | functionSignature
  | classDeclaration | abstractClassDeclaration | classHeritage | extendsClause | implementsClause
  | classBody | classStaticBlock | methodDefinition | methodSignature | abstractMethodSignature
  | publicFieldDefinition | accessibilityModifier | overrideModifier | decorator
  | interfaceDeclaration | extendsTypeClause | interfaceBody | typeAliasDeclaration
  | enumDeclaration | enumBody | enumAssignment | outerModule | innerModule | ambientDeclaration
  | identifier | propertyIdentifier | privatePropertyIdentifier | typeIdentifier
  | statementIdentifier | shorthandPropertyIdentifier | shorthandPropertyIdentifierPattern
  | undefinedValue | thisValue | superValue | trueValue | falseValue | nullValue
  | number | string | templateString | templateSubstitution | stringFragment | escapeSequence | regex
  | object | pair | spreadElement | array | computedPropertyName
  | functionExpression | generatorFunction | arrowFunction | classExpression
  | parenthesizedExpression | sequenceExpression | memberExpression | subscriptExpression
  | callExpression | newExpression | importKeyword | metaProperty | arguments | optionalChain
  | nonNullExpression | instantiationExpression | typeAssertion | asExpression | satisfiesExpression
  | unaryExpression | updateExpression | binaryExpression | ternaryExpression
  | assignmentExpression | augmentedAssignmentExpression | awaitExpression | yieldExpression
  | objectPattern | arrayPattern | pairPattern | restPattern | assignmentPattern
  | objectAssignmentPattern | formalParameters | requiredParameter | optionalParameter
  | jsxElement | jsxSelfClosingElement | jsxOpeningElement | jsxClosingElement
  | jsxAttribute | jsxExpression | jsxText | jsxNamespaceName | htmlCharacterReference
  | typeClause | assertsClause | predicateClause | asserts | typePredicate
  | typeParameters | typeParameter | constraint | defaultType | typeArguments
  | predefinedType | literalType | nestedTypeIdentifier | nestedIdentifier | genericType
  | objectType | propertySignature | callSignature | constructSignature | indexSignature
  | mappedTypeClause | arrayType | tupleType | optionalType | restType | lookupType
  | unionType | intersectionType | conditionalType | functionType | constructorType
  | readonlyType | inferType | typeQuery | indexTypeQuery | templateLiteralType | templateType
  | parenthesizedType | thisType | existentialType | maybeType
  deriving DecidableEq

inductive Kind
  | token (text : String)
  | node (category : Category)
  deriving DecidableEq

inductive Field
  | source | name | localName | qualifier | function | arguments | typeArguments | typeParameters
  | operator | left | right | argument | condition | consequence | alternative
  | object | property | index | callee
  | declaration | value | decorator | body | type | returnType | parameter | parameters | pattern
  | key | kind | label | initializer | increment | handler | finalizer
  | openTag | closeTag | attribute | constraint
  deriving DecidableEq

inductive Node where
  | mk (kind : Kind) (field : Option Field) (span : Span) (children : List Node)

namespace Node

def kind : Node → Kind
  | mk kind _ _ _ => kind

def field : Node → Option Field
  | mk _ field _ _ => field

def span : Node → Span
  | mk _ _ span _ => span

def children : Node → List Node
  | mk _ _ _ children => children

def start (node : Node) : Nat := node.span.start

def stop (node : Node) : Nat := node.span.stop

def isCategory (node : Node) (category : Category) : Bool := node.kind = .node category

def isToken (node : Node) (text : String) : Bool := node.kind = .token text

/-- Fixed lexemes have no name; all other nodes, comments included, do. -/
def isNamed (node : Node) : Bool :=
  match node.kind with
  | .token _ => false
  | .node _ => true

def namedChildren (node : Node) : List Node := node.children.filter isNamed

def child? (node : Node) (field : Field) : Option Node :=
  node.children.find? (fun child => child.field = some field)

def firstOf? (node : Node) (category : Category) : Option Node :=
  node.children.find? (·.isCategory category)

def withField (node : Node) (field : Field) : Node :=
  match node with
  | mk kind none span children => mk kind (some field) span children
  | other => other

mutual

def size : Node → Nat
  | mk _ _ _ children => 1 + sizes children

def sizes : List Node → Nat
  | [] => 0
  | child :: rest => size child + sizes rest

end

theorem size_eq (node : Node) : node.size = 1 + sizes node.children := by
  cases node
  simp only [size, children]

theorem sizes_append (left right : List Node) : sizes (left ++ right) = sizes left + sizes right := by
  induction left with
  | nil => simp [sizes]
  | cons node rest ih =>
    simp only [List.cons_append, sizes, ih]
    omega

mutual

def preorder : Node → List Node
  | node@(mk _ _ _ children) => node :: preorders children

def preorders : List Node → List Node
  | [] => []
  | child :: rest => preorder child ++ preorders rest

end

/-- Visits the trees of a stack: the top tree's root first, then its children in place of it. -/
def visit : List Node → List Node
  | [] => []
  | node :: stack => node :: visit (node.children ++ stack)
termination_by stack => sizes stack
decreasing_by
  simp only [sizes_append, sizes, size_eq node]
  omega

def walk (node : Node) : List Node := visit [node]

end Node
end Refit.Syntax
