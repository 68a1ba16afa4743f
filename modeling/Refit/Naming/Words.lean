import Refit.Json.Writer

/-!
Words of a name. A name falls into words at everything that is not an ASCII letter or digit, and
between a small letter or digit and a capital. The conversions differ in how they write the words and
what they put between them.
-/

namespace Refit.Naming

def joins (left right : Char) : Bool :=
  left.isAlphanum && right.isAlphanum && !((left.isLower || left.isDigit) && right.isUpper)

def words : List Char → List (List Char)
  | [] => []
  | c :: rest =>
    if c.isAlphanum then
      match rest, words rest with
      | next :: _, word :: others =>
        if joins c next then (c :: word) :: others else [c] :: word :: others
      | _, others => [c] :: others
    else words rest

def capitalize : List Char → List Char
  | [] => []
  | c :: rest => c.toUpper :: rest

def decapitalize : List Char → List Char
  | [] => []
  | c :: rest => c.toLower :: rest

def kebabChars (name : List Char) : List Char :=
  List.intercalate ['-'] ((words name).map (·.map Char.toLower))

def pascalChars (name : List Char) : List Char := ((words name).map capitalize).flatten

def camelChars (name : List Char) : List Char := decapitalize (pascalChars name)

/-- `UserCard` becomes `user-card`, and `users.$id` becomes `users-id`. -/
def kebab (name : String) : String := String.ofList (kebabChars name.toList)

/-- `user-card` becomes `UserCard`. -/
def pascal (name : String) : String := String.ofList (pascalChars name.toList)

/-- `user-card` becomes `userCard`. -/
def camel (name : String) : String := String.ofList (camelChars name.toList)

/-- Names of hooks: `use`, followed by a capital or a digit. -/
def isHookName : List Char → Bool
  | 'u' :: 's' :: 'e' :: c :: _ => c.isUpper || c.isDigit
  | _ => false

def asIdentifier : List Char → List Char
  | [] => "Component".toList
  | c :: rest => if c.isDigit then "Component".toList ++ (c :: rest) else c :: rest

def identifierChars (stem : List Char) : List Char :=
  asIdentifier (if isHookName (camelChars stem) then camelChars stem else pascalChars stem)

/-- The identifier of a unit whose file has the given stem. Hooks begin with a small letter, all
    other units with a capital. -/
def identifier (stem : String) : String := String.ofList (identifierChars stem.toList)

def braced (text : String) : String := "\x7b" ++ Json.quote text ++ "\x7d"

def endsChildText (c : Char) : Bool := ['\x7b', '\x7d', '<', '>', '&', '\n'].contains c

/-- A child is written as a string literal in braces if it could end the place where it stands. -/
def childText (text : String) : String :=
  if text.toList.any endsChildText then braced text else text

def attributeValue (text : String) : String :=
  if text.toList.contains '"' || text.toList.contains '\n' then braced text else "\"" ++ text ++ "\""

end Refit.Naming
