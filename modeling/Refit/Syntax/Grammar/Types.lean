import Refit.Syntax.Grammar.Symbol

namespace Refit.Syntax.Grammar

open Rule

namespace Types

def predefinedWords : List String :=
  ["any", "number", "boolean", "string", "symbol", "void", "unknown", "never", "object"]

def predefined : GrammarRule :=
  node .predefinedType (oneWord predefinedWords <|> (word "unique" ++ word "symbol"))

def typeWords : List String :=
  predefinedWords ++ ["typeof", "keyof", "infer", "readonly", "new", "this", "true", "false", "null",
    "undefined", "import", "const"]

def signedNumber : GrammarRule :=
  node .unaryExpression (field .operator (mark "-" <|> mark "+") ++ field .argument number)

def literal : GrammarRule :=
  node .literalType
    (signedNumber <|> number <|> string <|> wordAs .trueValue "true" <|> wordAs .falseValue "false"
      <|> wordAs .nullValue "null" <|> wordAs .undefinedValue "undefined")

def template : GrammarRule :=
  node .templateLiteralType
    (mark "`"
      ++ many (.lexeme (.node .stringFragment) true Scanner.templateText
        <|> node .templateType (gluedMark "$\x7b" ++ anyType ++ mark "\x7d"))
      ++ gluedMark "`")

def named : GrammarRule :=
  node .nestedTypeIdentifier
      (field .qualifier (nameExcept .identifier typeWords) ++ mark "." ++
        many (name .identifier ++ mark ".") ++ field .name typeIdentifier)
    <|> nameExcept .typeIdentifier typeWords

def reference : GrammarRule :=
  chain named (leftIs true [.nestedTypeIdentifier, .typeIdentifier] ++
    wrap .genericType (some .name) (field .typeArguments (ref .typeArguments)))

def queryIndex : GrammarRule := predefined <|> string <|> number

def member : GrammarRule :=
  field .property (privateName <|> name .propertyIdentifier)

def query : GrammarRule :=
  node .typeQuery
    (word "typeof" ++
      chain (wordAs .importKeyword "import" <|> wordAs .thisValue "this" <|> identifier)
        (wrap .memberExpression (some .object) ((mark "?." <|> mark ".") ++ member)
          <|> wrap .subscriptExpression (some .object)
              (maybe (mark "?.") ++ mark "[" ++ field .index queryIndex ++ mark "]")
          <|> goesOn .plain ++ wrap .callExpression (some .function) (field .arguments (ref .arguments))
          <|> wrap .instantiationExpression (some .function)
              (field .typeArguments (ref .typeArguments))))

def imported : GrammarRule :=
  chain (wordAs .importKeyword "import")
    (wrap .memberExpression (some .object) (mark "." ++ member)
      <|> leftIs true [.importKeyword, .memberExpression] ++
        wrap .callExpression (some .function) (field .arguments (ref .arguments)))

def functionType (breaks : Bool) : GrammarRule :=
  node .functionType
    (typeParameters ++ field .parameters (ref .parameters) ++ mark "=>" ++
      field .returnType (assertion breaks <|> typePredicate breaks <|> ref (.typing breaks 0)))

def constructorType (breaks : Bool) : GrammarRule :=
  node .constructorType
    (maybe (word "abstract") ++ word "new" ++ typeParameters ++ field .parameters (ref .parameters) ++
      mark "=>" ++ field .type (ref (.typing breaks 0)))

def tupleMember : GrammarRule :=
  node .requiredParameter
      (field .name (node .restPattern (mark "..." ++ identifier)) ++ field .type (typeClause false))
    <|> node .optionalParameter (field .name identifier ++ mark "?" ++ field .type (typeClause false))
    <|> node .requiredParameter (field .name identifier ++ field .type (typeClause false))
    <|> node .restType (mark "..." ++ anyType)
    <|> chain anyType (wrap .optionalType none (mark "?"))

def tuple : GrammarRule :=
  node .tupleType (mark "[" ++ maybe (commas tupleMember) ++ maybe (mark ",") ++ mark "]")

/-- What a type begins with. Operators are read by `typing`. -/
def operand (breaks : Bool) : GrammarRule :=
  let inner := fun level => ref (.typing breaks level)
  node .unionType (mark "|" ++ inner 2)
    <|> node .intersectionType (mark "&" ++ inner 3)
    <|> functionType breaks
    <|> constructorType breaks
    <|> node .readonlyType (word "readonly" ++ inner 3)
    <|> node .inferType (word "infer" ++ typeIdentifier ++
        (word "extends" ++ anyType <|> notBefore (Scanner.word "extends")))
    <|> node .indexTypeQuery (word "keyof" ++ inner 3)
    <|> query
    <|> predefined
    <|> literal
    <|> wordAs .thisType "this"
    <|> imported
    <|> word "const"
    <|> reference
    <|> node .parenthesizedType (mark "(" ++ anyType ++ mark ")")
    <|> ref (.objectType .objectType)
    <|> tuple
    <|> template
    <|> .lexeme (.node .existentialType) false (Scanner.fixed ['*'])
    <|> node .maybeType (mark "?" ++ inner 3)

def typing (breaks : Bool) (level : Nat) : GrammarRule :=
  let step : Nat → GrammarRule → GrammarRule := fun needed rule => if level ≤ needed then rule else oneOf []
  let unbroken : GrammarRule := if breaks then goesOn .plain else .empty
  chain (operand breaks)
    (unbroken ++
      (wrap .arrayType none (mark "[" ++ mark "]")
        <|> wrap .lookupType none (mark "[" ++ anyType ++ mark "]")
        <|> step 2 (wrap .intersectionType none (mark "&" ++ ref (.typing breaks 3)))
        <|> step 1 (wrap .unionType none (mark "|" ++ ref (.typing breaks 2)))
        <|> step 0 (wrap .conditionalType (some .left)
          (word "extends" ++ field .right anyType ++ mark "?" ++
            field .consequence anyType ++ mark ":" ++ field .alternative (ref (.typing breaks 0))))))

def arguments : GrammarRule :=
  node .typeArguments (mark "<" ++ commas anyType ++ maybe (mark ",") ++ mark ">")

def parameter : GrammarRule :=
  node .typeParameter
    (maybe (word "const" ++ before beginsMember) ++ field .name typeIdentifier ++
      maybe (field .constraint (node .constraint ((word "extends" <|> mark ":") ++ anyType))) ++
      maybe (field .value (node .defaultType (mark "=" ++ anyType))))

def parameters : GrammarRule :=
  node .typeParameters (mark "<" ++ commas parameter ++ maybe (mark ",") ++ mark ">")

def propertySignature : GrammarRule :=
  node .propertySignature
    (memberAccessibility ++ memberModifier "static" ++ memberOverride ++ memberModifier "readonly" ++
      field .name propertyName ++ maybe (mark "?") ++ optionalType true)

def methodSignature : GrammarRule :=
  node .methodSignature
    (memberAccessibility ++ memberModifier "static" ++ memberOverride ++ memberModifier "readonly" ++
      memberModifier "async" ++ memberForm ++ field .name propertyName ++ maybe (mark "?") ++
      callSignature true)

def constructSignature : GrammarRule :=
  node .constructSignature
    (maybe (word "abstract") ++ word "new" ++ typeParameters ++ field .parameters (ref .parameters) ++
      optionalType true)

def mappedClause : GrammarRule :=
  node .mappedTypeClause
    (field .name typeIdentifier ++ word "in" ++ field .type anyType ++
      maybe (word "as" ++ field .localName anyType))

def indexSignature : GrammarRule :=
  node .indexSignature
    (maybe (maybe (mark "-" <|> mark "+") ++ word "readonly") ++ mark "[" ++
      (mappedClause <|> field .name identifier ++ mark ":" ++ anyType) ++ mark "]" ++
      field .type (typeClause true
        <|> node .typeClause ((mark "-?:" <|> mark "+?:" <|> mark "?:") ++ trailingType)))

def separator : GrammarRule := mark "," <|> semicolon .plain

def object (category : Category) : GrammarRule :=
  let member : GrammarRule :=
    indexSignature
      <|> constructSignature
      <|> node .callSignature (callSignature true)
      <|> methodSignature
      <|> propertySignature
  node category
    ((mark "\x7b|" <|> mark "\x7b") ++
      maybe (maybe (mark "," <|> mark ";") ++ member ++ many (separator ++ member) ++
        maybe separator) ++
      (mark "|\x7d" <|> mark "\x7d"))

end Types

namespace Classes

def decorator : GrammarRule :=
  let path := chain identifier
    (wrap .memberExpression (some .object) (mark "." ++ field .property (name .propertyIdentifier)))
  let called := chain path
    (leftIs false [.callExpression] ++
      wrap .callExpression (some .function)
        (maybe (field .typeArguments (ref .typeArguments)) ++ field .arguments (ref .arguments)))
  node .decorator
    (mark "@" ++ (called <|> node .parenthesizedExpression (mark "(" ++ called ++ mark ")")))

def decorators : GrammarRule := many (field .decorator (ref .decorator))

def memberWords : List String := ["abstract", "accessor"]

/-- A modifier on the line of what it modifies; on a line of its own it is a field. -/
def modifierHere (text : String) : GrammarRule :=
  maybe (word text ++ goesOn .plain ++ before beginsMember)

def accessibilityHere : GrammarRule :=
  maybe (accessibility ++ goesOn .plain ++ before beginsMember)

def overrideHere : GrammarRule :=
  maybe (wordAs .overrideModifier "override" ++ goesOn .plain ++ before beginsMember)

def formHere : GrammarRule :=
  maybe (word "get" ++ goesOn .plain ++ before beginsMember
    <|> word "set" ++ goesOn .plain ++ before beginsMember
    <|> mark "*")

def memberName : GrammarRule := field .name (propertyNameExcept memberWords)

def methodHead : GrammarRule :=
  accessibilityHere ++ modifierHere "static" ++ overrideHere ++ modifierHere "readonly" ++
    modifierHere "async" ++ formHere ++ memberName ++ maybe (mark "?")

def method : GrammarRule :=
  decorators ++ node .methodDefinition (methodHead ++ callSignature true ++ field .body block) ++
    maybe (semicolon .plain)

def signatureEnd : GrammarRule := mark "," <|> semicolon .signature

def methodSignature : GrammarRule :=
  node .methodSignature (methodHead ++ callSignature true) ++ signatureEnd

def abstractMethod : GrammarRule :=
  node .abstractMethodSignature
    (accessibilityHere ++ word "abstract" ++ overrideHere ++ formHere ++ field .name propertyName ++
      maybe (mark "?") ++ callSignature true) ++ (mark "," <|> semicolon .plain)

def staticBlock : GrammarRule :=
  node .classStaticBlock (word "static" ++ field .body block)

def publicField : GrammarRule :=
  let declared := maybe (word "declare" ++ goesOn .plain ++ before beginsMember)
  let qualifiers :=
    (word "accessor" ++ before beginsMember)
      <|> word "abstract" ++ goesOn .plain ++ modifierHere "readonly"
      <|> word "readonly" ++ goesOn .plain ++ word "abstract" ++ before beginsMember
      <|> modifierHere "static" ++ overrideHere ++ modifierHere "readonly"
  node .publicFieldDefinition
      (decorators ++ declared ++ accessibilityHere ++ declared ++ qualifiers ++ memberName ++
        maybe (mark "?" <|> operator "!") ++ optionalType true ++ maybe (initializer .line))
    ++ (mark "," <|> semicolon .initializer)

def body : GrammarRule :=
  node .classBody
    (mark "\x7b" ++
      many (method
        <|> staticBlock
        <|> Types.indexSignature ++ (mark "," <|> semicolon .plain)
        <|> abstractMethod
        <|> methodSignature
        <|> publicField
        <|> mark ";") ++
      mark "\x7d")

end Classes
end Refit.Syntax.Grammar
