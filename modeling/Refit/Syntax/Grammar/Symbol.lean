import Refit.Syntax.Rule

namespace Refit.Syntax.Grammar

open Rule

structure Place where
  /-- The end of a line may end the statement right after the expression. -/
  breaks : Bool
  /-- The expression is the first branch of a conditional, so a colon after it is not a type's. -/
  branch : Bool

def Place.inner : Place := ⟨false, false⟩

def Place.line : Place := ⟨true, false⟩

inductive Symbol
  | statement
  /-- A declaration; `free` says that its first word could also be a name. -/
  | declaration (free : Bool)
  | block
  | expressions (place : Place)
  | expression (place : Place) (level : Nat)
  | operand (place : Place)
  | typing (breaks : Bool) (level : Nat)
  | pattern
  | destructuring
  | parameters
  | arguments
  | typeParameters
  | typeArguments
  | objectType (category : Category)
  | classBody
  | element
  | template
  | decorator

abbrev GrammarRule := Rule Symbol

def statement : GrammarRule := ref .statement

def block : GrammarRule := ref .block

def inside : GrammarRule := ref (.expression .inner 0)

def trailing : GrammarRule := ref (.expression .line 0)

def anyType : GrammarRule := ref (.typing false 0)

def trailingType : GrammarRule := ref (.typing true 0)

def identifier : GrammarRule := name .identifier

def typeIdentifier : GrammarRule := name .typeIdentifier

def string : GrammarRule := .lexeme (.node .string) false Scanner.string

def number : GrammarRule := .lexeme (.node .number) false Scanner.number

def privateName : GrammarRule := .lexeme (.node .privatePropertyIdentifier) false Scanner.privateName

def operandWords : List String :=
  ["function", "class", "this", "super", "true", "false", "null", "undefined", "typeof", "void",
   "delete", "await", "yield", "import", "new"]

def operandName : GrammarRule := nameExcept .identifier operandWords

def computedName : GrammarRule := node .computedPropertyName (mark "[" ++ inside ++ mark "]")

def propertyNameExcept (words : List String) : GrammarRule :=
  nameExcept .propertyIdentifier words <|> privateName <|> string <|> number <|> computedName

def propertyName : GrammarRule := propertyNameExcept []

def beginsMember : Scanner
  | c :: _ => if isNameStart c || isDigit c || ['"', '\'', '[', '#', '*', '\\'].contains c then some 0 else none
  | [] => none

/-- A modifier of a member: a word before something else that the member is named by. -/
def modifier (text : String) : GrammarRule := word text ++ before beginsMember

def accessibility : GrammarRule :=
  node .accessibilityModifier (oneWord ["public", "private", "protected"])

def memberAccessibility : GrammarRule := maybe (accessibility ++ before beginsMember)

def memberOverride : GrammarRule := maybe (wordAs .overrideModifier "override" ++ before beginsMember)

def memberModifier (text : String) : GrammarRule := maybe (modifier text)

def memberForm : GrammarRule := maybe (modifier "get" <|> modifier "set" <|> mark "*")

def typeParameters : GrammarRule := maybe (field .typeParameters (ref .typeParameters))

/-- In these rules `breaks` says that the end of a line may end what the type is the last part of. -/
def typeClause (breaks : Bool) : GrammarRule :=
  node .typeClause (mark ":" ++ ref (.typing breaks 0))

def optionalType (breaks : Bool) : GrammarRule := maybe (field .type (typeClause breaks))

def typePredicate (breaks : Bool) : GrammarRule :=
  node .typePredicate
    (field .name (wordAs .thisValue "this" <|> identifier) ++ word "is" ++
      field .type (ref (.typing breaks 0)))

def assertion (breaks : Bool) : GrammarRule :=
  node .asserts
    (word "asserts" ++ (typePredicate breaks <|> wordAs .thisValue "this" <|> identifier))

def returnType (breaks : Bool) : GrammarRule :=
  field .returnType
    (node .assertsClause (mark ":" ++ assertion breaks)
      <|> node .predicateClause (mark ":" ++ typePredicate breaks)
      <|> typeClause breaks)

def callSignature (breaks : Bool) : GrammarRule :=
  typeParameters ++ field .parameters (ref .parameters) ++ maybe (returnType breaks)

def initializer (place : Place) : GrammarRule :=
  operator "=" ++ field .value (ref (.expression place 0))

def nestedIdentifier : GrammarRule :=
  chain identifier (wrap .nestedIdentifier (some .object) (mark "." ++ field .property (name .propertyIdentifier)))

end Refit.Syntax.Grammar
