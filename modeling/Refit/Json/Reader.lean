import Refit.Decimal
import Refit.Json.Value
import Refit.Text.Hex

namespace Refit.Json

inductive Cause
  | value
  | propertyName
  | colon
  | comma
  | unterminatedString
  | controlCharacter
  | escape
  | unicodeEscape
  | extraData
  | byteOrderMark
  | longInteger (digits : Nat)
  deriving DecidableEq

namespace Cause

def text : Cause → String
  | value => "Expecting value"
  | propertyName => "Expecting property name enclosed in double quotes"
  | colon => "Expecting ':' delimiter"
  | comma => "Expecting ',' delimiter"
  | unterminatedString => "Unterminated string starting at"
  | controlCharacter => "Invalid control character at"
  | escape => "Invalid \\escape"
  | unicodeEscape => "Invalid \\uXXXX escape"
  | extraData => "Extra data"
  | byteOrderMark => "Unexpected UTF-8 BOM (decode using utf-8-sig)"
  | longInteger digits => Decimal.overlongText digits

end Cause

structure Fault where
  cause : Cause
  position : Nat
  deriving DecidableEq

def columnAfter (text : List Char) : Nat := (text.reverse.takeWhile (· ≠ '\n')).length

/-- What went wrong in a text, with line and column counted from one. -/
def Fault.message (fault : Fault) (source : String) : String :=
  let before := source.toList.take fault.position
  let line := before.count '\n' + 1
  let column := columnAfter before + 1
  fault.cause.text ++ ": line " ++ toString line ++ " column " ++ toString column ++
    " (char " ++ toString fault.position ++ ")"

namespace Reader

/-- A place in the text: how many characters precede it, and those that follow. -/
structure Place where
  position : Nat
  rest : List Char

def isBlank (c : Char) : Bool := c = ' ' || c = '\t' || c = '\n' || c = '\r'

def isDigit (c : Char) : Bool := '0' ≤ c && c ≤ '9'

def Place.drop (place : Place) (count : Nat) : Place := ⟨place.position + count, place.rest.drop count⟩

def Place.skipBlanks (place : Place) : Place :=
  place.drop (place.rest.takeWhile isBlank).length

def simpleEscape? : Char → Option Char
  | '"' => some '"'
  | '\\' => some '\\'
  | '/' => some '/'
  | 'b' => some '\x08'
  | 'f' => some '\x0c'
  | 'n' => some '\n'
  | 'r' => some '\r'
  | 't' => some '\t'
  | _ => none

/-- The character that a numeric escape stands for and how many characters it takes after the
letter; two escapes may together make one character. `position` is the place after the letter. -/
def numericEscape (position : Nat) (rest : List Char) : Except Fault (Char × Nat) :=
  if rest.length ≤ 4 then .error ⟨.unicodeEscape, position⟩
  else
    match Text.hexValue? 4 rest with
    | none => .error ⟨.unicodeEscape, position - 1⟩
    | some high =>
      if Text.isHighSurrogate high && 10 < rest.length && (rest.drop 4).take 2 = ['\\', 'u'] then
        match Text.hexValue? 4 (rest.drop 6) with
        | none => .error ⟨.unicodeEscape, position + 5⟩
        | some low =>
          if Text.isLowSurrogate low then .ok (Text.charOf (Text.joinSurrogates high low), 10)
          else .ok (Text.charOf high, 4)
      else .ok (Text.charOf high, 4)

def stringRest (start : Nat) : Nat → Place → List Char → Except Fault (String × Place)
  | 0, _, _ => .error ⟨.unterminatedString, start⟩
  | fuel + 1, ⟨position, rest⟩, read =>
    match rest with
    | [] => .error ⟨.unterminatedString, start⟩
    | '"' :: rest => .ok (String.ofList read.reverse, ⟨position + 1, rest⟩)
    | '\\' :: [] => .error ⟨.unterminatedString, start⟩
    | '\\' :: 'u' :: rest =>
      match numericEscape (position + 2) rest with
      | .error fault => .error fault
      | .ok (c, count) => stringRest start fuel ⟨position + 2 + count, rest.drop count⟩ (c :: read)
    | '\\' :: c :: rest =>
      match simpleEscape? c with
      | some c => stringRest start fuel ⟨position + 2, rest⟩ (c :: read)
      | none => .error ⟨.escape, position⟩
    | c :: rest =>
      if c.val ≤ 0x1f then .error ⟨.controlCharacter, position⟩
      else stringRest start fuel ⟨position + 1, rest⟩ (c :: read)

/-- The whole part of a number: one zero, or digits that begin with another one. -/
def wholeDigits (rest : List Char) : List Char :=
  match rest with
  | '0' :: _ => ['0']
  | _ => rest.takeWhile isDigit

def fractionDigits : List Char → List Char
  | '.' :: rest => rest.takeWhile isDigit
  | _ => []

def exponentPart : List Char → Option (Bool × List Char × Nat)
  | mark :: rest =>
    if mark = 'e' || mark = 'E' then
      let signed := match rest with
        | '-' :: _ => true
        | '+' :: _ => true
        | _ => false
      let digits := (if signed then rest.drop 1 else rest).takeWhile isDigit
      if digits.isEmpty then none
      else some (rest.head? = some '-', digits, 1 + (if signed then 1 else 0) + digits.length)
    else none
  | [] => none

def natOf (digits : List Char) : Nat := digits.foldl (fun n c => n * 10 + (c.toNat - '0'.toNat)) 0

def number (place : Place) : Except Fault (Value × Place) :=
  let negative := place.rest.head? = some '-'
  let signLength := if negative then 1 else 0
  let whole := wholeDigits (place.rest.drop signLength)
  if whole.isEmpty then .error ⟨.value, place.position⟩
  else
    let afterWhole := place.rest.drop (signLength + whole.length)
    let fraction := fractionDigits afterWhole
    let fractionLength := if fraction.isEmpty then 0 else fraction.length + 1
    let afterFraction := afterWhole.drop fractionLength
    let length := signLength + whole.length + fractionLength
    match exponentPart afterFraction with
    | some (negativeExponent, digits, count) =>
      let size : Int := natOf digits
      let exponent := (if negativeExponent then -size else size) - fraction.length
      .ok (.float (Decimal.nearest negative (natOf (whole ++ fraction)) exponent),
        place.drop (length + count))
    | none =>
      if fraction.isEmpty then
        let size : Int := natOf whole
        if Decimal.longestInteger < whole.length then .error ⟨.longInteger whole.length, place.position⟩
        else .ok (.int (if negative then -size else size), place.drop length)
      else
        .ok (.float (Decimal.nearest negative (natOf (whole ++ fraction)) (-fraction.length)),
          place.drop length)

def startsWith (place : Place) (word : String) : Bool := word.toList.isPrefixOf place.rest

def words : List (String × Value) :=
  [("null", .null), ("true", .bool true), ("false", .bool false), ("NaN", .float (0.0 / 0.0)),
   ("Infinity", .float (1.0 / 0.0)), ("-Infinity", .float (-1.0 / 0.0))]

mutual

def value : Nat → Place → Except Fault (Value × Place)
  | 0, place => .error ⟨.value, place.position⟩
  | fuel + 1, place =>
    match place.rest with
    | '"' :: rest =>
      match stringRest place.position (rest.length + 1) ⟨place.position + 1, rest⟩ [] with
      | .ok (text, after) => .ok (.string text, after)
      | .error fault => .error fault
    | '[' :: rest =>
      let inside := (Place.mk (place.position + 1) rest).skipBlanks
      match inside.rest with
      | ']' :: _ => .ok (.array [], inside.drop 1)
      | _ =>
        match items fuel inside with
        | .ok (items, after) => .ok (.array items, after)
        | .error fault => .error fault
    | '\x7b' :: rest =>
      let inside := (Place.mk (place.position + 1) rest).skipBlanks
      match inside.rest with
      | '\x7d' :: _ => .ok (.object [], inside.drop 1)
      | _ =>
        match members fuel inside [] with
        | .ok (entries, after) => .ok (.object entries, after)
        | .error fault => .error fault
    | _ =>
      match words.find? (fun word => startsWith place word.1) with
      | some (word, value) => .ok (value, place.drop word.length)
      | none => number place

def items : Nat → Place → Except Fault (List Value × Place)
  | 0, place => .error ⟨.value, place.position⟩
  | fuel + 1, place =>
    match value fuel place with
    | .error fault => .error fault
    | .ok (item, after) =>
      let after := after.skipBlanks
      match after.rest with
      | ']' :: _ => .ok ([item], after.drop 1)
      | ',' :: _ =>
        match items fuel (after.drop 1).skipBlanks with
        | .ok (rest, after) => .ok (item :: rest, after)
        | .error fault => .error fault
      | _ => .error ⟨.comma, after.position⟩

def members : Nat → Place → List (String × Value) → Except Fault (List (String × Value) × Place)
  | 0, place, _ => .error ⟨.value, place.position⟩
  | fuel + 1, place, read =>
    match place.rest with
    | '"' :: rest =>
      match stringRest place.position (rest.length + 1) ⟨place.position + 1, rest⟩ [] with
      | .error fault => .error fault
      | .ok (key, after) =>
        let after := after.skipBlanks
        match after.rest with
        | ':' :: _ =>
          match value fuel (after.drop 1).skipBlanks with
          | .error fault => .error fault
          | .ok (item, after) =>
            let read := insert read key item
            let after := after.skipBlanks
            match after.rest with
            | '\x7d' :: _ => .ok (read, after.drop 1)
            | ',' :: _ => members fuel (after.drop 1).skipBlanks read
            | _ => .error ⟨.comma, after.position⟩
        | _ => .error ⟨.colon, after.position⟩
    | _ => .error ⟨.propertyName, place.position⟩

end

end Reader

def read (source : String) : Except Fault Value :=
  let text := source.toList
  match text with
  | '\ufeff' :: _ => .error ⟨.byteOrderMark, 0⟩
  | _ =>
    match Reader.value (2 * text.length + 2) (Reader.Place.mk 0 text).skipBlanks with
    | .error fault => .error fault
    | .ok (value, after) =>
      let after := after.skipBlanks
      if after.rest.isEmpty then .ok value else .error ⟨.extraData, after.position⟩

end Refit.Json
