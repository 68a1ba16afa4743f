import Refit.Syntax.Grammar.Types
import Refit.Syntax.Grammar.Expressions

namespace Refit.Syntax.Grammar.Statements

open Rule

def condition : GrammarRule := field .condition Expressions.parenthesized

def body : GrammarRule := field .body statement

def statementWords : List String :=
  ["debugger", "const", "var", "enum", "interface", "abstract", "if", "switch", "for", "while", "do",
   "try", "with", "break", "continue", "return", "throw"]

def beginsStatementWord : Scanner := fun text =>
  if statementWords.any (fun word => (Scanner.word word text).isSome) then some 0 else none

def wordBefore (first : String) (second : Scanner) : Scanner := fun text =>
  match Scanner.word first text with
  | some size => second ((Cursor.ofText (text.drop size)).layout []).2.rest
  | none => none

def beginsDeclaration : Scanner := fun text =>
  wordBefore "export" (Scanner.fixed ['*']) text
    <|> wordBefore "export" (Scanner.word "as") text
    <|> wordBefore "let" (Scanner.fixed ['[']) text

def expressionStatement : GrammarRule :=
  notBefore beginsStatementWord ++ notBefore beginsDeclaration ++
    node .expressionStatement (ref (.expressions .line) ++ semicolon .operand)

def block : GrammarRule :=
  node .statementBlock (mark "\x7b" ++ many statement ++ mark "\x7d" ++ maybe (implicitEnd .operand))

def declarator : GrammarRule :=
  node .variableDeclarator
    (field .name (ref .destructuring <|> identifier) ++
      (operator "!" ++ field .type (typeClause true)
        <|> optionalType true ++ maybe (initializer .line)))

def declarators : GrammarRule := commas declarator ++ semicolon .initializer

def unbroken (free : Bool) : GrammarRule := if free then goesOn .operand else .empty

def lexicalDeclaration (free : Bool) : GrammarRule :=
  node .lexicalDeclaration (field .kind (word "let") ++ unbroken free ++ declarators)
    <|> node .lexicalDeclaration (field .kind (word "const") ++ declarators)

def variableDeclaration : GrammarRule :=
  node .variableDeclaration (field .kind (word "var") ++ declarators)

def functionHead (free : Bool) (star : GrammarRule) : GrammarRule :=
  maybe (word "async" ++ unbroken free) ++ word "function" ++ star ++ field .name identifier ++
    callSignature true

def functionDeclaration (free : Bool) : GrammarRule :=
  let ending := maybe (implicitEnd .plain)
  node .functionDeclaration (functionHead free .empty ++ field .body Grammar.block ++ ending)
    <|> node .generatorFunctionDeclaration
        (functionHead free (mark "*") ++ field .body Grammar.block ++ ending)
    <|> node .functionSignature (functionHead free .empty ++ semicolon .signature)

def classDeclaration : GrammarRule :=
  node .classDeclaration
      (Classes.decorators ++ word "class" ++ Expressions.classRest Expressions.className ++
        maybe (implicitEnd .plain))
    <|> node .abstractClassDeclaration
        (Classes.decorators ++ word "abstract" ++ word "class" ++
          Expressions.classRest Expressions.className)

def interfaceDeclaration : GrammarRule :=
  let bases := node .extendsTypeClause (word "extends" ++ commas (field .type anyType))
  node .interfaceDeclaration
    (word "interface" ++ field .name typeIdentifier ++ typeParameters ++ maybe bases ++
      field .body (ref (.objectType .interfaceBody)))

def typeAlias (free : Bool) : GrammarRule :=
  node .typeAliasDeclaration
    (word "type" ++ unbroken free ++ field .name typeIdentifier ++ typeParameters ++ mark "=" ++
      field .value trailingType ++ semicolon .plain)

def enumDeclaration : GrammarRule :=
  let member := node .enumAssignment (field .name propertyName ++ initializer .inner)
    <|> field .name propertyName
  node .enumDeclaration
    (maybe (word "const") ++ word "enum" ++ field .name identifier ++
      field .body (node .enumBody
        (mark "\x7b" ++ maybe (commas member ++ maybe (mark ",")) ++ mark "\x7d")))

def moduleRest (free : Bool) : GrammarRule :=
  unbroken free ++ field .name (string <|> nestedIdentifier) ++ maybe (field .body Grammar.block)

def moduleDeclaration (free : Bool) : GrammarRule :=
  node .outerModule (word "module" ++ moduleRest free)
    <|> node .innerModule (word "namespace" ++ moduleRest free)

def importAlias : GrammarRule :=
  node .importAlias
    (word "import" ++ identifier ++ mark "=" ++ nestedIdentifier ++ semicolon .plain)

def ambientDeclaration (free : Bool) : GrammarRule :=
  node .ambientDeclaration
    (word "declare" ++ unbroken free ++
      (ref (.declaration false)
        <|> word "global" ++ Grammar.block
        <|> word "module" ++ mark "." ++ name .propertyIdentifier ++ mark ":" ++ trailingType ++
          semicolon .plain))

def declaration (free : Bool) : GrammarRule :=
  functionDeclaration free
    <|> classDeclaration
    <|> enumDeclaration
    <|> lexicalDeclaration free
    <|> variableDeclaration
    <|> interfaceDeclaration
    <|> typeAlias free
    <|> moduleDeclaration free
    <|> importAlias
    <|> ambientDeclaration free

def ifStatement : GrammarRule :=
  node .ifStatement
    (word "if" ++ condition ++ field .consequence statement ++
      (field .alternative (node .elseClause (word "else" ++ statement))
        <|> notBefore (Scanner.word "else")))

def caseStatements : GrammarRule :=
  let another : Scanner := fun text =>
    if (Scanner.word "case" text).isSome || (Scanner.word "default" text).isSome then some 0 else none
  many (field .body (notBefore another ++ statement))

def switchStatement : GrammarRule :=
  let labelled :=
    node .switchCase
        (word "case" ++ field .value (ref (.expressions .inner)) ++ mark ":" ++ caseStatements)
      <|> node .switchDefault (word "default" ++ mark ":" ++ caseStatements)
  node .switchStatement
    (word "switch" ++ field .value Expressions.parenthesized ++
      field .body (node .switchBody (mark "\x7b" ++ many labelled ++ mark "\x7d")))

def emptyStatement : GrammarRule := node .emptyStatement (mark ";")

def forStatement : GrammarRule :=
  let whole := ref (.expressions .inner)
  let start := lexicalDeclaration true <|> variableDeclaration <|> whole ++ mark ";" <|> emptyStatement
  node .forStatement
    (word "for" ++ mark "(" ++ field .initializer start ++
      field .condition (whole ++ mark ";" <|> emptyStatement) ++
      maybe (field .increment whole) ++ mark ")" ++ body)

def forInStatement : GrammarRule :=
  let bound := field .left (ref .destructuring <|> identifier)
  let head :=
    field .kind (word "var") ++ bound ++ maybe (initializer .inner)
      <|> field .kind (oneWord ["let", "const"]) ++ bound
      <|> field .left (ref .pattern <|> Expressions.parenthesized)
  node .forInStatement
    (word "for" ++ maybe (word "await") ++ mark "(" ++ head ++
      field .operator (word "in" <|> word "of") ++ field .right (ref (.expressions .inner)) ++
      mark ")" ++ body)

def whileStatement : GrammarRule := node .whileStatement (word "while" ++ condition ++ body)

def doStatement : GrammarRule :=
  node .doStatement (word "do" ++ body ++ word "while" ++ condition ++ maybe (semicolon .plain))

def tryStatement : GrammarRule :=
  let caught := mark "(" ++ field .parameter (ref .destructuring <|> identifier) ++ optionalType false ++ mark ")"
  node .tryStatement
    (word "try" ++ field .body Grammar.block ++
      (field .handler (node .catchClause
          (word "catch" ++ maybe caught ++ field .body Grammar.block))
        <|> notBefore (Scanner.word "catch")) ++
      (field .finalizer (node .finallyClause (word "finally" ++ field .body Grammar.block))
        <|> notBefore (Scanner.word "finally")))

def withStatement : GrammarRule :=
  node .withStatement (word "with" ++ field .object Expressions.parenthesized ++ body)

def jump (category : Category) (text : String) : GrammarRule :=
  node category
    (word text ++ maybe (goesOn .plain ++ field .label (name .statementIdentifier)) ++
      semicolon .plain)

def returnStatement : GrammarRule :=
  node .returnStatement
    (word "return" ++
      (goesOn .plain ++ ref (.expressions .line) ++ semicolon .operand <|> semicolon .plain))

def throwStatement : GrammarRule :=
  node .throwStatement (word "throw" ++ ref (.expressions .line) ++ semicolon .operand)

def labeledStatement : GrammarRule :=
  node .labeledStatement
    (notBefore beginsStatementWord ++ field .label (nameExcept .statementIdentifier operandWords) ++
      mark ":" ++ body)

def moduleName : GrammarRule := identifier <|> string

def fromClause : GrammarRule := word "from" ++ field .source string

def importAttribute : GrammarRule :=
  goesOn .plain ++ node .importAttribute (oneWord ["with", "assert"] ++ Expressions.object)

def endsSpecifier : Scanner
  | ',' :: _ => some 0
  | '\x7d' :: _ => some 0
  | _ => none

def importSpecifier : GrammarRule :=
  let single := field .name identifier
  let renamed := field .name moduleName ++ word "as" ++ field .localName identifier
  let kinds := oneWord ["type", "typeof"]
  node .importSpecifier (kinds ++ (renamed <|> single) ++ before endsSpecifier)
    <|> node .importSpecifier ((renamed <|> single) ++ before endsSpecifier)

def namedImports : GrammarRule :=
  node .namedImports
    (mark "\x7b" ++ maybe (commas importSpecifier) ++ maybe (mark ",") ++ mark "\x7d")

def namespaceImport : GrammarRule := node .namespaceImport (mark "*" ++ word "as" ++ identifier)

/-- What an import binds. After the word `type` the word `from` is not a name. -/
def importClause (first : GrammarRule) : GrammarRule :=
  node .importClause
    (namespaceImport <|> namedImports
      <|> first ++ maybe (mark "," ++ (namespaceImport <|> namedImports)))

def importRequire : GrammarRule :=
  node .importRequireClause
    (identifier ++ mark "=" ++ word "require" ++ mark "(" ++ field .source string ++ mark ")")

def importStatement : GrammarRule :=
  let rest := fun (first : GrammarRule) =>
    (importClause first ++ fromClause <|> importRequire <|> field .source string) ++
      maybe importAttribute ++ semicolon .plain
  node .importStatement
      (word "import" ++ oneWord ["type", "typeof"] ++ rest (nameExcept .identifier ["from"]))
    <|> node .importStatement (word "import" ++ rest identifier)

def exportSpecifier : GrammarRule :=
  let single := field .name moduleName
  let renamed := field .name moduleName ++ word "as" ++ field .localName moduleName
  node .exportSpecifier
      (oneWord ["type", "typeof"] ++ (renamed <|> single) ++ before endsSpecifier)
    <|> node .exportSpecifier ((renamed <|> single) ++ before endsSpecifier)

def exportClause : GrammarRule :=
  node .exportClause
    (mark "\x7b" ++ maybe (commas exportSpecifier) ++ maybe (mark ",") ++ mark "\x7d")

def exportStatement : GrammarRule :=
  let every := node .namespaceExport (mark "*" ++ word "as" ++ moduleName)
  let listed := every ++ fromClause <|> mark "*" ++ fromClause <|> exportClause ++ maybe fromClause
  let rest :=
    listed ++ semicolon .plain
      <|> word "type" ++ exportClause ++ maybe fromClause ++ semicolon .plain
      <|> word "default" ++
          (field .declaration (ref (.declaration true))
            <|> field .value trailing ++ semicolon .operand)
      <|> field .declaration (ref (.declaration false))
      <|> mark "=" ++ trailing ++ semicolon .operand
      <|> word "as" ++ word "namespace" ++ identifier ++ semicolon .plain
  node .exportStatement (word "export" ++ goesOn .operand ++ rest)
    <|> node .exportStatement
        (field .decorator (ref .decorator) ++ Classes.decorators ++ word "export" ++ rest)

def statement : GrammarRule :=
  exportStatement
    <|> importStatement
    <|> declaration true
    <|> Grammar.block
    <|> ifStatement
    <|> switchStatement
    <|> forInStatement
    <|> forStatement
    <|> whileStatement
    <|> doStatement
    <|> tryStatement
    <|> withStatement
    <|> jump .breakStatement "break"
    <|> jump .continueStatement "continue"
    <|> node .debuggerStatement (word "debugger" ++ semicolon .plain)
    <|> returnStatement
    <|> throwStatement
    <|> emptyStatement
    <|> labeledStatement
    <|> expressionStatement

def program : GrammarRule :=
  node .program
    (maybe (.lexeme (.node .hashBang) false Scanner.hashBang) ++ many statement ++ endOfSource)

end Refit.Syntax.Grammar.Statements
