import Refit.Decimal
import Refit.Text.Base64
import Refit.Text.Hex
import Refit.Text.Pattern
import Refit.Text.Search
import Refit.Time.Moment
import Refit.Yaml.Fault

namespace Refit.Yaml

inductive Kind where
  | null
  | bool
  | int
  | float
  | binary
  | moment
  | string
  | sequence
  | mapping
  | orderedMapping
  | pairs
  | set
  /-- A key that brings in the entries of another mapping. -/
  | merge
  /-- A key that stands for the value of a mapping. -/
  | default
  | other (tag : String)
  deriving DecidableEq

namespace Kind

def standard : String := "tag:yaml.org,2002:"

def names : List (String × Kind) :=
  [("null", null), ("bool", bool), ("int", int), ("float", float), ("binary", binary),
   ("timestamp", moment), ("str", string), ("seq", sequence), ("map", mapping),
   ("omap", orderedMapping), ("pairs", pairs), ("set", set), ("merge", merge), ("value", default)]

def ofTag (tag : String) : Kind :=
  match names.find? (fun entry => standard ++ entry.1 = tag) with
  | some entry => entry.2
  | none => other tag

def isCollection : Kind → Bool
  | sequence => true
  | mapping => true
  | orderedMapping => true
  | pairs => true
  | set => true
  | _ => false

open Text.Pattern

def digit : Text.Pattern := one Char.isDigit

def sign : Text.Pattern := optional (oneOf "-+")

def spacedDigits : Text.Pattern := repeated (one (fun c => c.isDigit || c = '_'))

def exponent : Text.Pattern := optional (all [oneOf "eE", oneOf "-+", oneOrMore digit])

def sixties : Text.Pattern := oneOrMore (all [char ':', optional (one (fun c => '0' ≤ c && c ≤ '5')), digit])

def boolText : Text.Pattern :=
  words
    ["yes", "Yes", "YES", "no", "No", "NO", "true", "True", "TRUE", "false", "False", "FALSE",
     "on", "On", "ON", "off", "Off", "OFF"]

def floatText : Text.Pattern :=
  any
    [all [sign, digit, spacedDigits, char '.', spacedDigits, exponent],
     all [char '.', digit, spacedDigits, exponent],
     all [sign, digit, spacedDigits, sixties, char '.', spacedDigits],
     all [sign, words [".inf", ".Inf", ".INF"]],
     words [".nan", ".NaN", ".NAN"]]

def nonzeroDigit : Text.Pattern := one (fun c => '1' ≤ c && c ≤ '9')

def intText : Text.Pattern :=
  any
    [all [sign, text "0b", oneOrMore (oneOf "01_")],
     all [sign, char '0', oneOrMore (oneOf "01234567_")],
     all [sign, choice (char '0') (all [nonzeroDigit, spacedDigits])],
     all [sign, text "0x", oneOrMore (oneOf "0123456789abcdefABCDEF_")],
     all [sign, nonzeroDigit, spacedDigits, sixties]]

def nullText : Text.Pattern := words ["~", "null", "Null", "NULL", ""]

def shortNumber : Text.Pattern := all [digit, optional digit]

def longNumber : Text.Pattern := all [digit, digit]

def inlineBlanks : Text.Pattern := repeated (oneOf " \t")

def offsetText : Text.Pattern :=
  choice (char 'Z') (all [oneOf "-+", shortNumber, optional (all [char ':', longNumber])])

def timeText : Text.Pattern :=
  all
    [choice (oneOf "Tt") (oneOrMore (oneOf " \t")), shortNumber, char ':', longNumber, char ':',
     longNumber, optional (all [char '.', repeated digit]), optional (all [inlineBlanks, offsetText])]

def yearText : Text.Pattern := all [digit, digit, digit, digit]

def momentText : Text.Pattern :=
  choice (all [yearText, char '-', longNumber, char '-', longNumber])
    (all [yearText, char '-', shortNumber, char '-', shortNumber, timeText])

def shapes : List (Kind × Text.Pattern) :=
  [(bool, boolText), (float, floatText), (int, intText), (merge, text "<<"), (null, nullText),
   (moment, momentText), (default, text "="), (other (standard ++ "yaml"), oneOf "!&*")]

/-- The kind that a text shows. A line break at its end does not matter. -/
def ofText (scalar : String) : Kind :=
  let chars := scalar.toList
  let line := if 1 < chars.length && chars.getLast? = some '\n' then chars.dropLast else chars
  match shapes.find? (fun shape => shape.2.isMatch line) with
  | some shape => shape.1
  | none => string

end Kind

inductive Scalar where
  | null
  | bool (value : Bool)
  | int (value : Int)
  | float (value : Float)
  | string (value : String)
  | bytes (value : List UInt8)
  | moment

namespace Scalar

def unsigned : List Char → Bool × List Char
  | '-' :: rest => (true, rest)
  | '+' :: rest => (false, rest)
  | rest => (false, rest)

def digitsValue? (base : Nat) (digits : List Char) : Option Nat :=
  if digits.isEmpty then none
  else
    digits.foldl
      (fun value c => do
        let value ← value
        let digit ← Text.hexDigit? c
        if digit < base then some (base * value + digit) else none)
      (some 0)

def baseLetter : Nat → Char
  | 2 => 'b'
  | 8 => 'o'
  | _ => 'x'

def dropBase (base : Nat) : List Char → List Char
  | '0' :: c :: rest => if base ≠ 10 && c.toLower = baseLetter base then rest else '0' :: c :: rest
  | rest => rest

def integer (base : Nat) (text : List Char) : Except ValueFault Int :=
  let (negative, digits) := unsigned (Text.trimChars Text.isBlank text)
  let digits := dropBase base digits
  match digitsValue? base digits with
  | none => .error (.noInteger base (String.ofList text))
  | some value =>
    if base = 10 && Decimal.longestInteger < digits.length then .error (.longInteger digits.length)
    else .ok (if negative then -(value : Int) else value)

def sixties {α : Type} [Add α] [Mul α] (ofNat : Nat → α) : Nat → List α → α
  | _, [] => ofNat 0
  | base, part :: rest => part * ofNat base + sixties ofNat (base * 60) rest

def dense (text : String) : List Char := text.toList.filter (· ≠ '_')

def readInt (text : String) : Except ValueFault Int := do
  let digits := dense text
  if digits.isEmpty then throw .emptyNumber
  let (negative, digits) := unsigned digits
  let size ←
    if digits.take 2 = ['0', 'b'] then integer 2 (digits.drop 2)
    else if digits.take 2 = ['0', 'x'] then integer 16 (digits.drop 2)
    else if digits.isEmpty then throw .emptyNumber
    else if digits.head? = some '0' && digits ≠ ['0'] then integer 8 digits
    else if digits.contains ':' then do
      let parts ← (Text.splitChars (· = ':') digits).mapM (integer 10)
      pure (sixties Int.ofNat 1 parts.reverse)
    else integer 10 digits
  pure (if negative then -size else size)

def decimal? (text : List Char) : Option Float := do
  let (negative, rest) := unsigned text
  let whole := rest.takeWhile Char.isDigit
  let rest := rest.dropWhile Char.isDigit
  let fraction := if rest.head? = some '.' then (rest.drop 1).takeWhile Char.isDigit else []
  let rest := if rest.head? = some '.' then (rest.drop 1).dropWhile Char.isDigit else rest
  let digits ← digitsValue? 10 (whole ++ fraction)
  let exponent ←
    match rest with
    | [] => some (0 : Int)
    | c :: rest =>
      if c = 'e' then do
        let (negative, digits) := unsigned rest
        let size ← digitsValue? 10 digits
        if digits.all Char.isDigit then some (if negative then -(size : Int) else size) else none
      else none
  some (Decimal.nearest negative digits (exponent - fraction.length))

def number (text : List Char) : Except ValueFault Float :=
  let trimmed := Text.trimChars Text.isBlank text
  let (negative, word) := unsigned trimmed
  let infinite : Float := 1.0 / 0.0
  if word = "inf".toList || word = "infinity".toList then .ok (if negative then -infinite else infinite)
  else if word = "nan".toList then .ok (0.0 / 0.0)
  else
    match decimal? trimmed with
    | some value => .ok value
    | none => .error (.noNumber (String.ofList text))

def readFloat (text : String) : Except ValueFault Float := do
  let chars := (Text.lower (String.ofList (dense text))).toList
  if chars.isEmpty then throw .emptyNumber
  let (negative, rest) := unsigned chars
  let size ←
    if rest = ".inf".toList then pure (1.0 / 0.0)
    else if rest = ".nan".toList then pure (0.0 / 0.0)
    else if rest.contains ':' then do
      let parts ← (Text.splitChars (· = ':') rest).mapM number
      pure (parts.reverse.foldl (fun total part => (total.1 + part * Float.ofNat total.2, total.2 * 60)) (0.0, 1)).1
    else number rest
  pure (if negative then -size else size)

def truths : List (String × Bool) :=
  [("yes", true), ("no", false), ("true", true), ("false", false), ("on", true), ("off", false)]

def readBool (text : String) : Except ValueFault Bool :=
  match truths.lookup (Text.lower text) with
  | some value => .ok value
  | none => .error (.noTruth (Text.lower text))

def checkDate (year month day : Nat) : Except ValueFault Unit :=
  if year = 0 then .error (.yearOutOfRange year)
  else if month = 0 || 12 < month then .error .monthOutOfRange
  else if day = 0 || (Moment.monthLengths year)[month - 1]?.getD 0 < day then .error .dayOutOfRange
  else .ok ()

def checkTime (hour minute second : Nat) : Except ValueFault Unit :=
  if 23 < hour then .error .hourOutOfRange
  else if 59 < minute then .error .minuteOutOfRange
  else if 59 < second then .error .secondOutOfRange
  else .ok ()

def checkOffset (negative : Bool) (hours minutes : Nat) : Except ValueFault Unit :=
  let size : Int := 3600 * hours + 60 * minutes
  let seconds := if negative then -size else size
  if size < 86400 then .ok () else .error (.offsetOutOfRange (seconds / 86400) (seconds % 86400).toNat)

def leadingNumber (text : List Char) : Nat × List Char :=
  ((digitsValue? 10 (text.takeWhile Char.isDigit)).getD 0, text.dropWhile Char.isDigit)

def threeNumbers (text : List Char) : Nat × Nat × Nat × List Char :=
  let (first, rest) := leadingNumber text
  let (second, rest) := leadingNumber (rest.drop 1)
  let (third, rest) := leadingNumber (rest.drop 1)
  (first, second, third, rest)

def momentText : Text.Pattern :=
  .all
    [Kind.yearText, .char '-', Kind.shortNumber, .char '-', Kind.shortNumber,
     .optional Kind.timeText]

def checkZone (text : List Char) : Except ValueFault Unit :=
  match text with
  | c :: rest =>
    if c = '+' || c = '-' then
      let (hours, rest) := leadingNumber rest
      checkOffset (c = '-') hours (leadingNumber (rest.drop 1)).1
    else .ok ()
  | [] => .ok ()

def isTimeMark (c : Char) : Bool := c = 'T' || c = 't' || c = ' ' || c = '\t'

def checkMoment (text : String) : Except ValueFault Unit := do
  if !momentText.isMatch text.toList then throw .noMoment
  let (year, month, day, rest) := threeNumbers text.toList
  if rest.isEmpty then checkDate year month day
  else
    let (hour, minute, second, rest) := threeNumbers (rest.dropWhile isTimeMark)
    let zone := (rest.dropWhile (fun c => c = '.' || c.isDigit)).dropWhile isTimeMark
    checkZone zone
    checkDate year month day
    checkTime hour minute second

def read (kind : Kind) (text : String) : Except Fault Scalar :=
  match kind with
  | .null => .ok .null
  | .bool => ((readBool text).map bool).mapError .value
  | .int => ((readInt text).map int).mapError .value
  | .float => ((readFloat text).map float).mapError .value
  | .string => .ok (.string text)
  | .moment => ((checkMoment text).map (fun _ => moment)).mapError .value
  | .binary =>
    if text.toList.all (fun c => c.val < 128) then
      match Text.Base64.decode? text.toList with
      | some value => .ok (.bytes value)
      | none => .error .wrongKind
    else .error .wrongKind
  | _ => .error .unknownTag

end Scalar
end Refit.Yaml
