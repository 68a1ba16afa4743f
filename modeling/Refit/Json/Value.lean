namespace Refit.Json

inductive Value where
  | null
  | bool (value : Bool)
  | int (value : Int)
  | float (value : Float)
  | string (value : String)
  | array (items : List Value)
  | object (entries : List (String × Value))
  deriving Inhabited

/-- Gives a key a value. A key that is already there keeps its place. -/
def insert {α : Type} (entries : List (String × α)) (key : String) (value : α) : List (String × α) :=
  match entries with
  | [] => [(key, value)]
  | entry :: rest => if entry.1 = key then (key, value) :: rest else entry :: insert rest key value

def lookup {α : Type} (entries : List (String × α)) (key : String) : Option α :=
  (entries.find? (fun entry => entry.1 = key)).map (·.2)

namespace Value

def get? (value : Value) (key : String) : Option Value :=
  match value with
  | object entries => lookup entries key
  | _ => none

def isTrue : Value → Bool
  | null => false
  | bool value => value
  | int value => value ≠ 0
  | float value => value != 0
  | string value => !value.isEmpty
  | array items => !items.isEmpty
  | object entries => !entries.isEmpty

def asText : Value → String
  | string text => text
  | _ => ""

def text? (value : Value) (key : String) : Option String :=
  match value.get? key with
  | some (string text) => some text
  | _ => none

end Value
end Refit.Json
