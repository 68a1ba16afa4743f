namespace Refit.Text.Utf8

inductive Reason
  | invalidStart
  | invalidContinuation
  | unexpectedEnd
  deriving DecidableEq

def Reason.text : Reason → String
  | invalidStart => "invalid start byte"
  | invalidContinuation => "invalid continuation byte"
  | unexpectedEnd => "unexpected end of data"

/-- The bytes from `start` up to `stop` are wrong; `first` is the first of them. -/
structure Fault where
  first : UInt8
  start : Nat
  stop : Nat
  reason : Reason
  deriving DecidableEq

def hexByte (byte : UInt8) : String :=
  let digits := Nat.toDigits 16 byte.toNat
  String.ofList (if digits.length < 2 then '0' :: digits else digits)

def Fault.message (fault : Fault) : String :=
  let place :=
    if fault.stop = fault.start + 1 then
      "byte 0x" ++ hexByte fault.first ++ " in position " ++ toString fault.start
    else "bytes in position " ++ toString fault.start ++ "-" ++ toString (fault.stop - 1)
  "'utf-8' codec can't decode " ++ place ++ ": " ++ fault.reason.text

def encode (text : String) : List UInt8 := text.toUTF8.toList

def isContinuation (byte : UInt8) : Bool := 0x80 ≤ byte && byte ≤ 0xbf

def followsHead (first second : UInt8) : Bool :=
  isContinuation second &&
    !(first = 0xe0 && second < 0xa0) && !(first = 0xed && 0xa0 ≤ second) &&
    !(first = 0xf0 && second < 0x90) && !(first = 0xf4 && 0x90 ≤ second)

def low6 (byte : UInt8) : Nat := byte.toNat % 64

def charOf (code : Nat) : Char := Char.ofNat code

/-- What the first bytes make: a character and its length, or a fault of some length. -/
inductive Step
  | char (c : Char) (length : Nat)
  | fault (reason : Reason) (length : Nat)

def step (first : UInt8) (rest : List UInt8) : Step :=
  if first < 0x80 then .char (charOf first.toNat) 1
  else if first < 0xc2 then .fault .invalidStart 1
  else if first < 0xe0 then
    match rest with
    | [] => .fault .unexpectedEnd 1
    | second :: _ =>
      if isContinuation second then .char (charOf (first.toNat % 32 * 64 + low6 second)) 2
      else .fault .invalidContinuation 1
  else if first < 0xf0 then
    match rest with
    | [] => .fault .unexpectedEnd 1
    | [second] =>
      if followsHead first second then .fault .unexpectedEnd 2 else .fault .invalidContinuation 1
    | second :: third :: _ =>
      if !followsHead first second then .fault .invalidContinuation 1
      else if !isContinuation third then .fault .invalidContinuation 2
      else .char (charOf ((first.toNat % 16 * 64 + low6 second) * 64 + low6 third)) 3
  else if first < 0xf5 then
    match rest with
    | [] => .fault .unexpectedEnd 1
    | [second] =>
      if followsHead first second then .fault .unexpectedEnd 2 else .fault .invalidContinuation 1
    | [second, third] =>
      if !followsHead first second then .fault .invalidContinuation 1
      else if !isContinuation third then .fault .invalidContinuation 2
      else .fault .unexpectedEnd 3
    | second :: third :: fourth :: _ =>
      if !followsHead first second then .fault .invalidContinuation 1
      else if !isContinuation third then .fault .invalidContinuation 2
      else if !isContinuation fourth then .fault .invalidContinuation 3
      else
        .char (charOf (((first.toNat % 8 * 64 + low6 second) * 64 + low6 third) * 64 + low6 fourth)) 4
  else .fault .invalidStart 1

def decodeFrom (position : Nat) : Nat → List UInt8 → Except Fault (List Char)
  | _, [] => .ok []
  | skip + 1, _ :: rest => decodeFrom (position + 1) skip rest
  | 0, first :: rest =>
    match step first rest with
    | .char c length =>
      match decodeFrom (position + 1) (length - 1) rest with
      | .ok chars => .ok (c :: chars)
      | .error fault => .error fault
    | .fault reason length => .error ⟨first, position, position + length, reason⟩

def decode (bytes : List UInt8) : Except Fault String :=
  match decodeFrom 0 0 bytes with
  | .ok chars => .ok (String.ofList chars)
  | .error fault => .error fault

def decodeLossyFrom : Nat → List UInt8 → List Char
  | _, [] => []
  | skip + 1, _ :: rest => decodeLossyFrom skip rest
  | 0, first :: rest =>
    match step first rest with
    | .char c length => c :: decodeLossyFrom (length - 1) rest
    | .fault _ length => decodeLossyFrom (length - 1) rest

def decodeLossy (bytes : List UInt8) : String := String.ofList (decodeLossyFrom 0 bytes)

end Refit.Text.Utf8
