import Refit.Syntax.Grammar.Statements

namespace Refit.Syntax

open Grammar

def Grammar.rules (dialect : Dialect) : Symbol → GrammarRule
  | .statement => Statements.statement
  | .declaration free => Statements.declaration free
  | .block => Statements.block
  | .expressions place => Expressions.expressions place
  | .expression place level => Expressions.expression place level
  | .operand place => Expressions.operand dialect place
  | .typing breaks level => Types.typing breaks level
  | .pattern => Bindings.pattern
  | .destructuring => Bindings.destructuring
  | .parameters => Bindings.parameters
  | .arguments => Expressions.arguments
  | .typeParameters => Types.parameters
  | .typeArguments => Types.arguments
  | .objectType category => Types.object category
  | .classBody => Classes.body
  | .element => Markup.element
  | .template => Expressions.template
  | .decorator => Classes.decorator

def parse? (dialect : Dialect) (text : List Char) : Option Node :=
  match Rule.read (Grammar.rules dialect) (1000 * (text.length + 10)) Statements.program [] []
      (Cursor.ofText text) with
  | some (made, _) => made.find? (·.isCategory .program)
  | none => none

end Refit.Syntax
