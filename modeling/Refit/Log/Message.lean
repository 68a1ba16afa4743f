import Refit.Json.Writer
import Refit.Text.Hex

namespace Refit.Log

inductive Extent where
  | written (count : Nat)
  | taken

structure Place where
  name : Option String
  flags : List Char
  width : Extent
  precision : Option Extent
  letter : Char

def readNumber (text : List Char) : Nat × List Char :=
  ((text.takeWhile Char.isDigit).foldl (fun n c => n * 10 + (c.toNat - '0'.toNat)) 0,
    text.dropWhile Char.isDigit)

def readExtent : List Char → Extent × List Char
  | '*' :: rest => (.taken, rest)
  | text => let (count, rest) := readNumber text; (.written count, rest)

/-- Reads a name up to the parenthesis that closes it; parentheses inside of it are paired. -/
def readName : Nat → List Char → List Char → Option (String × List Char)
  | _, _, [] => none
  | 0, name, ')' :: rest => some (String.ofList name.reverse, rest)
  | depth + 1, name, ')' :: rest => readName depth (')' :: name) rest
  | depth, name, '(' :: rest => readName (depth + 1) ('(' :: name) rest
  | depth, name, c :: rest => readName depth (c :: name) rest

def isFlag (c : Char) : Bool := ['-', '+', ' ', '0', '#'].contains c

def readLayout (name : Option String) (text : List Char) : Option (Place × List Char) :=
  let flags := text.takeWhile isFlag
  let (width, text) := readExtent (text.dropWhile isFlag)
  let (precision, text) : Option Extent × List Char :=
    match text with
    | '.' :: rest => let (extent, rest) := readExtent rest; (some extent, rest)
    | _ => (none, text)
  let text := match text with
    | 'h' :: rest => rest
    | 'l' :: rest => rest
    | 'L' :: rest => rest
    | _ => text
  match text with
  | letter :: rest => some (⟨name, flags, width, precision, letter⟩, rest)
  | [] => none

def readPlace : List Char → Option (Place × List Char)
  | '(' :: rest => do
      let (name, rest) ← readName 0 [] rest
      readLayout (some name) rest
  | text => readLayout none text

structure Layout where
  width : Nat
  precision : Option Nat
  toLeft : Bool
  zeros : Bool
  plus : Bool
  blank : Bool
  marked : Bool

def Place.layout (place : Place) (width : Int) (precision : Option Int) : Layout where
  width := width.natAbs
  precision := precision.map Int.toNat
  toLeft := place.flags.contains '-' || width < 0
  zeros := place.flags.contains '0'
  plus := place.flags.contains '+'
  blank := place.flags.contains ' '
  marked := place.flags.contains '#'

def Layout.text (layout : Layout) (text : List Char) : List Char :=
  let missing := List.replicate (layout.width - text.length) ' '
  if layout.toLeft then text ++ missing else missing ++ text

def Layout.cut (layout : Layout) (text : String) : List Char :=
  layout.text (match layout.precision with
    | some count => text.toList.take count
    | none => text.toList)

/-- A number without its sign, filled up to the width; zeros go between the sign and the digits. -/
def Layout.number (layout : Layout) (negative : Bool) (mark digits : List Char) : List Char :=
  let sign :=
    if negative then ['-'] else if layout.plus then ['+'] else if layout.blank then [' '] else []
  let head := sign ++ mark
  let missing := layout.width - (head.length + digits.length)
  if layout.toLeft then head ++ digits ++ List.replicate missing ' '
  else if layout.zeros then head ++ List.replicate missing '0' ++ digits
  else List.replicate missing ' ' ++ head ++ digits

def integer? : Json.Value → Option Int
  | .int value => some value
  | .bool value => some (if value then 1 else 0)
  | _ => none

def wholeNumber : Json.Value → Option Int
  | .float value =>
    match Decimal.Parts.ofFloat value with
    | .finite negative m q _ =>
      let size : Int := if q < 0 then (m / Nat.pow 2 q.natAbs : Nat) else (m * Nat.pow 2 q.natAbs : Nat)
      some (if negative then -size else size)
    | _ => none
  | value => integer? value

/-- A whole number to a base; the precision is the least count of digits, and the mark says the
    base. -/
def Layout.whole (layout : Layout) (base : Nat) (mark : List Char) (value : Int) : List Char :=
  let digits := Nat.toDigits base value.natAbs
  let padded := List.replicate ((layout.precision.getD 0) - digits.length) '0' ++ digits
  layout.number (value < 0) (if layout.marked then mark else []) padded

/-- The double that an argument stands for; a whole number beyond all doubles has none. -/
def double? : Json.Value → Option Float
  | .float value => some value
  | value => do
      let n ← integer? value
      let x := Decimal.nearest (n < 0) n.natAbs 0
      if x.isInf then none else some x

inductive Style where
  | fixed
  | scientific
  | general

def Style.digits : Style → Decimal.Fraction → Nat → Bool → List Char
  | .fixed => Decimal.fixed
  | .scientific => Decimal.scientific
  | .general => Decimal.general

/-- A double; six places are the rule. -/
def Layout.double (layout : Layout) (style : Style) (value : Float) : List Char :=
  match Decimal.Parts.ofFloat value with
  | .notANumber => layout.number false [] "nan".toList
  | .infinite negative => layout.number negative [] "inf".toList
  | .finite negative m q _ =>
    layout.number negative []
      (style.digits (Decimal.quarters (4 * m) q) (layout.precision.getD 6) layout.marked)

def char? : Json.Value → Option Char
  | .string text =>
    match text.toList with
    | [c] => some c
    | _ => none
  | value => do
      let code ← integer? value
      if 0 ≤ code && code ≤ 0x10ffff then some (Text.charOf code.toNat) else none

def asciiOnly (text : String) : String :=
  String.ofList (text.toList.flatMap fun c =>
    if c.toNat < 0x80 then [c] else Text.Quoted.escapeCode c)

def Layout.shown (layout : Layout) (letter : Char) (argument : Json.Value) : Option (List Char) :=
  let upper := List.map Char.toUpper
  match letter with
  | 's' => some (layout.cut (Json.plain argument))
  | 'r' => some (layout.cut (Json.shown argument))
  | 'a' => some (layout.cut (asciiOnly (Json.shown argument)))
  | 'c' => (char? argument).map (layout.text [·])
  | 'd' => (wholeNumber argument).map (layout.whole 10 [])
  | 'i' => (wholeNumber argument).map (layout.whole 10 [])
  | 'u' => (wholeNumber argument).map (layout.whole 10 [])
  | 'x' => (integer? argument).map (layout.whole 16 ['0', 'x'])
  | 'X' => (integer? argument).map (upper ∘ layout.whole 16 ['0', 'x'])
  | 'o' => (integer? argument).map (layout.whole 8 ['0', 'o'])
  | 'f' => (double? argument).map (layout.double .fixed)
  | 'F' => (double? argument).map (upper ∘ layout.double .fixed)
  | 'e' => (double? argument).map (layout.double .scientific)
  | 'E' => (double? argument).map (upper ∘ layout.double .scientific)
  | 'g' => (double? argument).map (layout.double .general)
  | 'G' => (double? argument).map (upper ∘ layout.double .general)
  | _ => none

/-- What the places of a message are filled from: arguments in their order, or one object whose
    entries can be named. Of an object, what was named last is there for one place; before anything
    is named that is the object. -/
inductive Arguments where
  | inOrder (arguments : List Json.Value)
  | named (object : Json.Value) (current : Option Json.Value)

def Arguments.of (arguments : List Json.Value) : Arguments :=
  match arguments with
  | [.object (entry :: rest)] => .named (.object (entry :: rest)) (some (.object (entry :: rest)))
  | _ => .inOrder arguments

def Arguments.turnTo (name : String) : Arguments → Option Arguments
  | .inOrder _ => none
  | .named object _ => (object.get? name).map (fun value => .named object (some value))

def Arguments.next : Arguments → Option (Json.Value × Arguments)
  | .inOrder [] => none
  | .inOrder (argument :: rest) => some (argument, .inOrder rest)
  | .named _ none => none
  | .named object (some value) => some (value, .named object none)

/-- A width or a precision; one that is taken from the arguments is a whole number. -/
def Arguments.extent (arguments : Arguments) : Extent → Option (Int × Arguments)
  | .written count => some (count, arguments)
  | .taken => do
      let (value, arguments) ← arguments.next
      let count ← integer? value
      pure (count, arguments)

def Arguments.isUsed : Arguments → Bool
  | .inOrder arguments => arguments.isEmpty
  | .named _ _ => true

def Arguments.fill (arguments : Arguments) (place : Place) : Option (List Char × Arguments) := do
  let arguments ← match place.name with
    | some name => arguments.turnTo name
    | none => some arguments
  let (width, arguments) ← arguments.extent place.width
  let (precision, arguments) ← match place.precision with
    | some extent => (arguments.extent extent).map (fun (count, rest) => (some count, rest))
    | none => some (none, arguments)
  let (argument, arguments) ← arguments.next
  let shown ← (place.layout width precision).shown place.letter argument
  pure (shown, arguments)

/-- Fills the places of a message. The number bounds how often a percent sign is met; two of them
    stand for one. -/
def fillPlaces : Nat → Arguments → List Char → Option (List Char)
  | 0, _, _ => none
  | fuel + 1, arguments, text =>
    let plain := text.takeWhile (· ≠ '%')
    match text.dropWhile (· ≠ '%') with
    | [] => if arguments.isUsed then some plain else none
    | _ :: '%' :: rest => do
        let others ← fillPlaces fuel arguments rest
        pure (plain ++ '%' :: others)
    | _ :: rest => do
        let (place, rest) ← readPlace rest
        let (shown, arguments) ← arguments.fill place
        let others ← fillPlaces fuel arguments rest
        pure (plain ++ shown ++ others)

/-- A message with its arguments. Without arguments it stands for itself; arguments that do not fit
    make no message. -/
def message? (text : String) (arguments : List Json.Value) : Option String :=
  if arguments.isEmpty then some text
  else (fillPlaces (text.length + 1) (Arguments.of arguments) text.toList).map String.ofList

end Refit.Log
