import Refit.Syntax.Layout

/-!
Grammar rules and how a source is read by them. A rule is a piece of data: alternatives are tried
in order and the first that fits is kept, a repetition takes as much as it can, and a chain reads
left-recursive forms by growing what stands on its left. Reading a rule makes nodes whose spans are
the places between which it read.
-/

namespace Refit.Syntax

/-- What is known where a statement may end without a semicolon. -/
inductive Ending
  /-- An operator could follow. -/
  | operand
  /-- No operator could follow. -/
  | plain
  /-- The body of a function could follow. -/
  | signature
  /-- An operator could follow exactly if the last declaration has an initial value. -/
  | initializer

inductive Rule (Symbol : Type) where
  | empty
  /-- A lexeme; blanks and comments may stand before it unless it is glued to what precedes. -/
  | lexeme (kind : Kind) (glued : Bool) (scan : Scanner)
  | ref (symbol : Symbol)
  | seq (first second : Rule Symbol)
  | alt (first second : Rule Symbol)
  | many (item : Rule Symbol)
  | field (part : Field) (body : Rule Symbol)
  | node (category : Category) (body : Rule Symbol)
  /-- Reads `first`, then lets `step` take it as its left operand as often as it can. -/
  | chain (first step : Rule Symbol)
  | grow (step : Rule Symbol)
  /-- Gathers the left operand and the nodes of `body` under one node. -/
  | wrap (category : Category) (part : Option Field) (body : Rule Symbol)
  /-- Reads nothing, where the left operand is, or is not, of one of the categories. -/
  | leftIs (expected : Bool) (categories : List Category)
  /-- Reads `body`, whose last node must be of one of the categories. -/
  | only (categories : List Category) (body : Rule Symbol)
  /-- Reads nothing, where the text after blanks and comments does, or does not, begin so. -/
  | ahead (expected : Bool) (scan : Scanner)
  /-- Reads nothing, where a statement does not end. -/
  | goesOn (ending : Ending)
  | implicitEnd (ending : Ending)
  | endOfSource

namespace Node

def isComment (node : Node) : Bool := node.isCategory .comment

def playing (part : Field) (node : Node) : Node :=
  if node.isComment then node else node.withField part

/-- One node over nodes read last first. Comments before the first of them stay outside. -/
def gather (category : Category) (made met : List Node) (cursor : Cursor) : List Node :=
  let children := made.reverse
  let own := children.dropWhile isComment
  let span : Span := match own, made with
    | first :: _, last :: _ => ⟨first.start, last.stop⟩
    | _, _ => ⟨cursor.offset, cursor.offset⟩
  .mk (.node category) none span own :: ((children.takeWhile isComment).reverse ++ met)

def hasInitializer (node : Node) : Bool := (node.child? .value).isSome

end Node

namespace Ending

def afterOperand (met : List Node) : Ending → Bool
  | operand => true
  | plain => false
  | signature => false
  | initializer => match met.head? with
    | some node => node.hasInitializer
    | none => false

def afterSignature : Ending → Bool
  | signature => true
  | _ => false

end Ending

namespace Rule

variable {Symbol : Type}

instance : Append (Rule Symbol) := ⟨.seq⟩

instance : OrElse (Rule Symbol) := ⟨fun first second => .alt first (second ())⟩

/-- Reads a rule. Nodes come last first, before the nodes `met` so far; `left` is the operand of a
chain. The fuel bounds how deeply rules may stand inside each other. -/
def read (grammar : Symbol → Rule Symbol) :
    Nat → Rule Symbol → List Node → List Node → Cursor → Option (List Node × Cursor)
  | 0, _, _, _, _ => none
  | fuel + 1, rule, left, met, cursor =>
    match rule with
    | empty => some (met, cursor)
    | lexeme kind glued scan =>
      let (met, here) := if glued then (met, cursor) else cursor.layout met
      match scan here.rest with
      | some count =>
        let after := here.advance count
        some (.mk kind none ⟨here.offset, after.offset⟩ [] :: met, after)
      | none => none
    | ref symbol => read grammar fuel (grammar symbol) [] met cursor
    | seq first second =>
      match read grammar fuel first left met cursor with
      | some (met, cursor) => read grammar fuel second left met cursor
      | none => none
    | alt first second =>
      match read grammar fuel first left met cursor with
      | some result => some result
      | none => read grammar fuel second left met cursor
    | many item =>
      match read grammar fuel item [] met cursor with
      | some (more, after) =>
        if cursor.offset < after.offset then read grammar fuel (many item) [] more after
        else some (met, cursor)
      | none => some (met, cursor)
    | field part body =>
      match read grammar fuel body left [] cursor with
      | some (made, after) => some (made.map (Node.playing part) ++ met, after)
      | none => none
    | node category body =>
      match read grammar fuel body [] [] cursor with
      | some (made, after) => some (Node.gather category made met after, after)
      | none => none
    | chain first step =>
      match read grammar fuel first [] [] cursor with
      | some (made, after) => read grammar fuel (grow step) made met after
      | none => none
    | grow step =>
      match read grammar fuel step left [] cursor with
      | some (made, after) => read grammar fuel (grow step) made met after
      | none => some (left ++ met, cursor)
    | wrap category part body =>
      match read grammar fuel body [] [] cursor with
      | some (made, after) =>
        let operand := match part with
          | some part => left.map (Node.playing part)
          | none => left
        some (Node.gather category (made ++ operand) met after, after)
      | none => none
    | leftIs expected categories =>
      if left.head?.any (fun operand => categories.any operand.isCategory) = expected then
        some (met, cursor)
      else none
    | only categories body =>
      match read grammar fuel body left [] cursor with
      | some (made, after) =>
        if made.head?.any (fun last => categories.any last.isCategory) then
          some (made ++ met, after)
        else none
      | none => none
    | ahead expected scan =>
      if (scan (cursor.layout []).2.rest).isSome = expected then some (met, cursor) else none
    | goesOn ending =>
      match cursor.implicitEnd? (ending.afterOperand met) ending.afterSignature [] with
      | some _ => none
      | none => some (met, cursor)
    | implicitEnd ending =>
      cursor.implicitEnd? (ending.afterOperand met) ending.afterSignature met
    | endOfSource =>
      let (met, here) := cursor.layout met
      if here.rest.isEmpty then some (met, here) else none

def maybe (rule : Rule Symbol) : Rule Symbol := rule <|> empty

def mark (text : String) : Rule Symbol := .lexeme (.token text) false (Scanner.fixed text.toList)

def gluedMark (text : String) : Rule Symbol := .lexeme (.token text) true (Scanner.fixed text.toList)

def operator (text : String) : Rule Symbol := .lexeme (.token text) false (Scanner.operator text)

def word (text : String) : Rule Symbol := .lexeme (.token text) false (Scanner.word text)

def wordAs (category : Category) (text : String) : Rule Symbol :=
  .lexeme (.node category) false (Scanner.word text)

def nameExcept (category : Category) (words : List String) : Rule Symbol :=
  .lexeme (.node category) false (Scanner.nameExcept words)

def name (category : Category) : Rule Symbol := .lexeme (.node category) false Scanner.name

def oneOf : List (Rule Symbol) → Rule Symbol
  | [] => .only [] .empty
  | [rule] => rule
  | rule :: rest => rule <|> oneOf rest

def oneWord (words : List String) : Rule Symbol := oneOf (words.map word)

def commas (item : Rule Symbol) : Rule Symbol := item ++ many (mark "," ++ item)

def slots (item : Rule Symbol) : Rule Symbol := maybe item ++ many (mark "," ++ maybe item)

def notBefore (scan : Scanner) : Rule Symbol := .ahead false scan

def before (scan : Scanner) : Rule Symbol := .ahead true scan

def semicolon (ending : Ending) : Rule Symbol := implicitEnd ending <|> mark ";"

end Rule
end Refit.Syntax
