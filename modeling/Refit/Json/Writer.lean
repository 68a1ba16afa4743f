import Refit.Decimal
import Refit.Json.Value
import Refit.Text.Quoted

namespace Refit.Json

def hexDigit (n : Nat) : Char :=
  if n < 10 then Char.ofNat ('0'.toNat + n) else Char.ofNat ('a'.toNat + (n - 10))

def escapeChar (c : Char) : List Char :=
  match c with
  | '"' => ['\\', '"']
  | '\\' => ['\\', '\\']
  | '\n' => ['\\', 'n']
  | '\r' => ['\\', 'r']
  | '\t' => ['\\', 't']
  | '\x08' => ['\\', 'b']
  | '\x0c' => ['\\', 'f']
  | c =>
    if c.val < 0x20 then
      ['\\', 'u', '0', '0', hexDigit (c.toNat / 16), hexDigit (c.toNat % 16)]
    else [c]

/-- Strings keep all characters but quotes, backslashes and controls. -/
def quote (text : String) : String :=
  String.ofList ('"' :: (text.toList.flatMap escapeChar ++ ['"']))

def floatText (value : Float) : String :=
  match Decimal.Parts.ofFloat value with
  | .notANumber => "NaN"
  | .infinite negative => if negative then "-Infinity" else "Infinity"
  | .finite .. => Decimal.text value

def indentation (depth : Nat) : String := String.ofList (List.replicate (2 * depth) ' ')

def bracketed (opening closing : String) (depth : Nat) (items : List String) : String :=
  let inner := "\n" ++ indentation (depth + 1)
  opening ++ inner ++ String.intercalate ("," ++ inner) items ++ "\n" ++ indentation depth ++ closing

mutual

def layout (depth : Nat) : Value → String
  | .null => "null"
  | .bool value => if value then "true" else "false"
  | .int value => toString value
  | .float value => floatText value
  | .string value => quote value
  | .array [] => "[]"
  | .array (item :: rest) => bracketed "[" "]" depth (layoutItems (depth + 1) (item :: rest))
  | .object [] => "\x7b\x7d"
  | .object (entry :: rest) =>
    bracketed "\x7b" "\x7d" depth (layoutEntries (depth + 1) (entry :: rest))

def layoutItems (depth : Nat) : List Value → List String
  | [] => []
  | item :: rest => layout depth item :: layoutItems depth rest

def layoutEntries (depth : Nat) : List (String × Value) → List String
  | [] => []
  | (key, value) :: rest => (quote key ++ ": " ++ layout depth value) :: layoutEntries depth rest

end

/-- Documents are indented by two blanks and end with a line break. -/
def document (value : Value) : String := layout 0 value ++ "\n"

def typeName : Value → String
  | .null => "NoneType"
  | .bool _ => "bool"
  | .int _ => "int"
  | .float _ => "float"
  | .string _ => "str"
  | .array _ => "list"
  | .object _ => "dict"

def shownBool (value : Bool) : String := if value then "True" else "False"

mutual

/-- A value as messages show it, with texts in single quotes. -/
def shown : Value → String
  | .null => "None"
  | .bool value => shownBool value
  | .int value => toString value
  | .float value => Decimal.text value
  | .string value => Text.Quoted.encode value
  | .array items => "[" ++ String.intercalate ", " (shownItems items) ++ "]"
  | .object entries => "\x7b" ++ String.intercalate ", " (shownEntries entries) ++ "\x7d"

def shownItems : List Value → List String
  | [] => []
  | item :: rest => shown item :: shownItems rest

def shownEntries : List (String × Value) → List String
  | [] => []
  | (key, value) :: rest => (Text.Quoted.encode key ++ ": " ++ shown value) :: shownEntries rest

end

/-- A value on its own: a text stands without quotes. -/
def plain : Value → String
  | .string value => value
  | value => shown value

end Refit.Json
