/-!
The shortest decimal that reads back as a given binary number.

A finite number is `m * 2^q`. The reals that round to it form an interval around it, whose ends
belong to it when `m` is even. Of the decimals with one digit, then two, and so on, the first that
lies in the interval is taken, and of two such decimals the nearer one.
-/

namespace Refit.Decimal

structure Scaled where
  digits : Nat
  exponent : Int
  deriving DecidableEq

structure Fraction where
  numerator : Nat
  denominator : Nat

def quarters (count : Nat) (q : Int) : Fraction :=
  if 2 ≤ q then ⟨count * Nat.pow 2 (q - 2).toNat, 1⟩ else ⟨count, Nat.pow 2 (2 - q).toNat⟩

def Fraction.scaleDown (x : Fraction) (exponent : Int) : Fraction :=
  if 0 ≤ exponent then ⟨x.numerator, x.denominator * Nat.pow 10 exponent.toNat⟩
  else ⟨x.numerator * Nat.pow 10 (-exponent).toNat, x.denominator⟩

def Fraction.floor (x : Fraction) : Nat := x.numerator / x.denominator

def digitCount (n : Nat) : Nat := (Nat.toDigits 10 n).length

def leadingZeros (x : Fraction) : Nat → Nat
  | 0 => 0
  | fuel + 1 =>
    if x.denominator ≤ x.numerator then 0
    else 1 + leadingZeros ⟨x.numerator * 10, x.denominator⟩ fuel

def leadingExponent (x : Fraction) : Int :=
  if x.denominator ≤ x.numerator then (digitCount x.floor : Int) - 1
  else -(leadingZeros x 400 : Int)

def within (low high : Fraction) (closed : Bool) (count : Nat) (exponent : Int) : Bool :=
  let low := low.scaleDown exponent
  let high := high.scaleDown exponent
  let value := fun (x : Fraction) => count * x.denominator
  if closed then low.numerator ≤ value low && value high ≤ high.numerator
  else low.numerator < value low && value high < high.numerator

def onGrid (x low high : Fraction) (closed : Bool) (exponent : Int) : Option Nat :=
  let scaled := x.scaleDown exponent
  let below := scaled.floor
  let lowerFits := 0 < below && within low high closed below exponent
  let upperFits := within low high closed (below + 1) exponent
  if lowerFits && upperFits then
    let twice := 2 * (scaled.numerator - below * scaled.denominator)
    if twice < scaled.denominator then some below
    else if scaled.denominator < twice then some (below + 1)
    else some (if below % 2 = 0 then below else below + 1)
  else if lowerFits then some below
  else if upperFits then some (below + 1)
  else none

def search (x low high : Fraction) (closed : Bool) (exponent : Int) : Nat → Scaled
  | 0 => ⟨(x.scaleDown exponent).floor, exponent⟩
  | fuel + 1 =>
    match onGrid x low high closed exponent with
    | some digits => ⟨digits, exponent⟩
    | none => search x low high closed (exponent - 1) fuel

/-- The shortest decimal for `m * 2^q`; `narrow` says that the next smaller number is only half as
far away as the next larger one. -/
def shortest (m : Nat) (q : Int) (narrow : Bool) : Scaled :=
  let x := quarters (4 * m) q
  let low := quarters (4 * m - if narrow then 1 else 2) q
  let high := quarters (4 * m + 2) q
  search x low high (m % 2 = 0) (leadingExponent x) 17

inductive Parts
  | notANumber
  | infinite (negative : Bool)
  | finite (negative : Bool) (mantissa : Nat) (exponent : Int) (narrow : Bool)

def Parts.ofFloat (value : Float) : Parts :=
  let bits := value.toBits.toNat
  let negative := Nat.pow 2 63 ≤ bits
  let exponent : Nat := bits / Nat.pow 2 52 % Nat.pow 2 11
  let fraction := bits % Nat.pow 2 52
  if exponent = 2047 then if fraction = 0 then .infinite negative else .notANumber
  else if exponent = 0 then .finite negative fraction (-1074) false
  else .finite negative (Nat.pow 2 52 + fraction) ((exponent : Int) - 1075) (fraction = 0 && 1 < exponent)

def Scaled.normalize (x : Scaled) : Nat → Scaled
  | 0 => x
  | fuel + 1 =>
    if x.digits % 10 = 0 && x.digits ≠ 0 then
      Scaled.normalize ⟨x.digits / 10, x.exponent + 1⟩ fuel
    else x

/-- Numbers from 10^-4 up to 10^16 are written out, others with an exponent of two digits or more;
a number written out has a point and a digit after it. -/
def Scaled.text (x : Scaled) : String :=
  let digits := Nat.toDigits 10 x.digits
  let leading : Int := x.exponent + digits.length - 1
  if -4 ≤ leading && leading < 16 then
    if 0 ≤ x.exponent then
      String.ofList (digits ++ List.replicate x.exponent.toNat '0' ++ ['.', '0'])
    else if 0 ≤ leading then
      let whole := (leading + 1).toNat
      String.ofList (digits.take whole ++ '.' :: digits.drop whole)
    else
      String.ofList ('0' :: '.' :: List.replicate (-leading - 1).toNat '0' ++ digits)
  else
    let mantissa := match digits with
      | [] => []
      | [digit] => [digit]
      | digit :: rest => digit :: '.' :: rest
    let size := Nat.toDigits 10 leading.natAbs
    let padded := if size.length < 2 then '0' :: size else size
    String.ofList (mantissa ++ 'e' :: (if leading < 0 then '-' else '+') :: padded)

def text (value : Float) : String :=
  match Parts.ofFloat value with
  | .notANumber => "nan"
  | .infinite negative => if negative then "-inf" else "inf"
  | .finite negative mantissa exponent narrow =>
    let sign := if negative then "-" else ""
    if mantissa = 0 then sign ++ "0.0"
    else sign ++ ((shortest mantissa exponent narrow).normalize 400).text

/-- The double nearest to `digits * 10^exponent`. Beyond the range of doubles it is infinite or
zero. -/
def nearest (negative : Bool) (digits : Nat) (exponent : Int) : Float :=
  let leading : Int := exponent + digitCount digits
  let size : Float :=
    if digits = 0 || leading < -400 then 0.0
    else if 400 < leading then 1.0 / 0.0
    else Float.ofScientific digits (exponent < 0) exponent.natAbs
  if negative then -size else size

/-- The whole number nearest to a fraction; a half goes to the even neighbour. -/
def Fraction.round (x : Fraction) : Nat :=
  let below := x.floor
  let twice := 2 * (x.numerator - below * x.denominator)
  if twice < x.denominator then below
  else if x.denominator < twice then below + 1
  else if below % 2 = 0 then below
  else below + 1

def paddedDigits (width n : Nat) : List Char :=
  let digits := Nat.toDigits 10 n
  List.replicate (width - digits.length) '0' ++ digits

/-- Puts a point after the first digits. Without digits behind it the point is left out, unless it
is wanted. -/
def pointed (whole : Nat) (digits : List Char) (keepPoint : Bool) : List Char :=
  let fraction := digits.drop whole
  if fraction.isEmpty && !keepPoint then digits
  else digits.take whole ++ '.' :: fraction

def fixed (x : Fraction) (places : Nat) (keepPoint : Bool) : List Char :=
  let digits := paddedDigits (places + 1) (x.scaleDown (-(places : Int))).round
  pointed (digits.length - places) digits keepPoint

def leading (x : Fraction) (places : Nat) : Nat × Int :=
  if x.numerator = 0 then (0, 0)
  else
    let exponent := leadingExponent x
    let digits := (x.scaleDown (exponent - places)).round
    if places + 1 < digitCount digits then (digits / 10, exponent + 1) else (digits, exponent)

def exponentText (exponent : Int) : List Char :=
  'e' :: (if exponent < 0 then '-' else '+') :: paddedDigits 2 exponent.natAbs

def scientific (x : Fraction) (places : Nat) (keepPoint : Bool) : List Char :=
  let (digits, exponent) := leading x places
  pointed 1 (paddedDigits (places + 1) digits) keepPoint ++ exponentText exponent

def trimZeros (text : List Char) : List Char :=
  if text.contains '.' then
    let trimmed := text.reverse.dropWhile (· = '0')
    (if trimmed.head? = some '.' then trimmed.drop 1 else trimmed).reverse
  else text

/-- A number with so many digits that count, written out when its exponent is small and otherwise
with an exponent. Zeros at the end are dropped, unless they are wanted. -/
def general (x : Fraction) (count : Nat) (keepZeros : Bool) : List Char :=
  let count := max count 1
  let (digits, exponent) := leading x (count - 1)
  let trim := fun (text : List Char) => if keepZeros then text else trimZeros text
  if -4 ≤ exponent && exponent < count then
    trim (fixed x (count - 1 - exponent).toNat keepZeros)
  else
    trim (pointed 1 (paddedDigits count digits) keepZeros) ++ exponentText exponent

/-- A whole number with more digits is not read. -/
def longestInteger : Nat := 4300

def limitText : String := "Exceeds the limit (4300 digits) for integer string conversion"

def remedyText : String := "; use sys.set_int_max_str_digits() to increase the limit"

def overlongText (digits : Nat) : String :=
  limitText ++ ": value has " ++ toString digits ++ " digits" ++ remedyText

end Refit.Decimal
