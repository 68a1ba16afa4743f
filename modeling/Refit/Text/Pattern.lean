namespace Refit.Text

/-- Patterns of whole texts. A text is matched character by character: after each character there is a pattern
    for what may follow it. -/
inductive Pattern where
  | never
  | nothing
  | one (accepts : Char → Bool)
  | followed (first second : Pattern)
  | either (left right : Pattern)
  | repeated (pattern : Pattern)

namespace Pattern

/-- One pattern after another; after a pattern that matches no text nothing else matters. -/
def sequence : Pattern → Pattern → Pattern
  | never, _ => never
  | nothing, second => second
  | first, second => followed first second

def choice : Pattern → Pattern → Pattern
  | never, right => right
  | left, never => left
  | left, right => either left right

def acceptsEmpty : Pattern → Bool
  | never => false
  | nothing => true
  | one _ => false
  | followed first second => first.acceptsEmpty && second.acceptsEmpty
  | either left right => left.acceptsEmpty || right.acceptsEmpty
  | repeated _ => true

def after (c : Char) : Pattern → Pattern
  | never => never
  | nothing => never
  | one accepts => if accepts c then nothing else never
  | followed first second =>
    let rest := sequence (after c first) second
    if first.acceptsEmpty then choice rest (after c second) else rest
  | either left right => choice (after c left) (after c right)
  | repeated pattern => sequence (after c pattern) (repeated pattern)

def isMatch (pattern : Pattern) : List Char → Bool
  | [] => pattern.acceptsEmpty
  | c :: rest => (pattern.after c).isMatch rest

def char (c : Char) : Pattern := one (· = c)

def oneOf (chars : String) : Pattern := one (fun c => chars.toList.contains c)

def optional (pattern : Pattern) : Pattern := either nothing pattern

def all (patterns : List Pattern) : Pattern := patterns.foldr sequence nothing

def any (patterns : List Pattern) : Pattern := patterns.foldr choice never

def text (text : String) : Pattern := all (text.toList.map char)

def words (texts : List String) : Pattern := any (texts.map text)

def oneOrMore (pattern : Pattern) : Pattern := followed pattern (repeated pattern)

end Pattern

namespace Glob

/-- A member of a set: a character, or all characters of a range. -/
inductive Member where
  | one (c : Char)
  | range (first last : Char)
  deriving DecidableEq

def Member.contains : Member → Char → Bool
  | one member, c => c = member
  | range first last, c => first ≤ c && c ≤ last

def Member.isEmpty : Member → Bool
  | one _ => false
  | range first last => last < first

def members : List Char → List Member
  | [] => []
  | first :: '-' :: last :: rest => .range first last :: members rest
  | c :: rest => .one c :: members rest

structure CharSet where
  negated : Bool
  members : List Member
  deriving DecidableEq

def CharSet.contains (set : CharSet) (c : Char) : Bool := set.members.any (·.contains c) != set.negated

def CharSet.ofMembers : List Member → CharSet
  | .one '!' :: rest => ⟨true, rest⟩
  | .range '!' last :: rest => ⟨true, .one '-' :: .one last :: rest⟩
  | members => ⟨false, members⟩

def CharSet.ofContent (content : List Char) : CharSet :=
  let found : List Member :=
    match content with
    | '!' :: rest => .one '!' :: Glob.members rest
    | _ => Glob.members content
  .ofMembers (found.filter (!·.isEmpty))

inductive Token where
  | star
  | any
  | oneOf (set : CharSet)
  | char (c : Char)
  deriving DecidableEq

/-- Splits what follows an opening bracket into the content and what follows the closing bracket. A
    closing bracket that comes first, or first after an exclamation mark, belongs to the content. -/
def bracket? (text : List Char) : Option (List Char × List Char) :=
  let lead :=
    match text with
    | '!' :: ']' :: _ => 2
    | '!' :: _ => 1
    | ']' :: _ => 1
    | _ => 0
  let inner := text.take lead ++ (text.drop lead).takeWhile (· ≠ ']')
  match (text.drop lead).dropWhile (· ≠ ']') with
  | _ :: rest => some (inner, rest)
  | [] => none

/-- Reads a pattern. The first argument counts the characters of a set that are still to be passed
    over. -/
def tokensFrom : Nat → List Char → List Token
  | _, [] => []
  | skip + 1, _ :: rest => tokensFrom skip rest
  | 0, '*' :: rest => .star :: tokensFrom 0 rest
  | 0, '?' :: rest => .any :: tokensFrom 0 rest
  | 0, '[' :: rest =>
    match bracket? rest with
    | some (content, _) => .oneOf (.ofContent content) :: tokensFrom (content.length + 1) rest
    | none => .char '[' :: tokensFrom 0 rest
  | 0, c :: rest => .char c :: tokensFrom 0 rest

def tokens (pattern : String) : List Token := tokensFrom 0 pattern.toList

def Token.admits : Token → Char → Bool
  | star, _ => true
  | any, _ => true
  | oneOf set, c => set.contains c
  | char member, c => c = member

def someSuffix (property : List Char → Bool) : List Char → Bool
  | [] => property []
  | c :: rest => property (c :: rest) || someSuffix property rest

def accepts : List Token → List Char → Bool
  | [], text => text.isEmpty
  | .star :: rest, text => someSuffix (accepts rest) text
  | token :: rest, c :: text => token.admits c && accepts rest text
  | _ :: _, [] => false

/-- Whether a whole name matches. In a pattern, `*` stands for any text, `?` for one character and brackets for one
    character of a set; a bracket that is never closed stands for itself. -/
def matchesText (pattern text : String) : Bool := accepts (tokens pattern) text.toList

end Glob
end Refit.Text
