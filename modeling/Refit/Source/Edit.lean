import Refit.Text.Utf8

namespace Refit

structure Edit where
  start : Int
  stop : Int
  replacement : String
  deriving DecidableEq

inductive EditFault where
  | outside (start stop : Int)
  | overlap (start stop : Int) (cursor : Nat)
  | undecodable (fault : Text.Utf8.Fault)

def EditFault.message : EditFault → String
  | outside start stop =>
    "Edit " ++ toString start ++ ":" ++ toString stop ++ " is outside the source text"
  | overlap start stop cursor =>
    "Edit " ++ toString start ++ ":" ++ toString stop ++ " overlaps a previous edit ending at "
      ++ toString cursor
  | undecodable fault => fault.message

namespace Edit

def precedes (left right : Edit) : Bool :=
  left.start < right.start || (left.start = right.start && left.stop ≤ right.stop)

def inRange (size : Nat) (edit : Edit) : Bool :=
  0 ≤ edit.start && edit.start ≤ edit.stop && edit.stop ≤ size

def splice (bytes : List UInt8) (cursor : Nat) : List Edit → Except EditFault (List UInt8)
  | [] => .ok (bytes.drop cursor)
  | edit :: rest =>
    if !edit.inRange bytes.length then .error (.outside edit.start edit.stop)
    else if edit.start < cursor then .error (.overlap edit.start edit.stop cursor)
    else do
      let ending ← splice bytes edit.stop.toNat rest
      pure ((bytes.drop cursor).take (edit.start.toNat - cursor)
        ++ Text.Utf8.encode edit.replacement ++ ending)

def applyBytes (bytes : List UInt8) (edits : List Edit) : Except EditFault (List UInt8) :=
  splice bytes 0 (edits.mergeSort precedes)

def applyAll (text : String) (edits : List Edit) : Except EditFault String := do
  let bytes ← applyBytes (Text.Utf8.encode text) edits
  match Text.Utf8.decode bytes with
  | .ok result => pure result
  | .error fault => throw (.undecodable fault)

end Edit
end Refit
