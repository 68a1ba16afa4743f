namespace Refit.Text.Base64

def letterValue? (c : Char) : Option Nat :=
  if 'A' ≤ c && c ≤ 'Z' then some (c.toNat - 'A'.toNat)
  else if 'a' ≤ c && c ≤ 'z' then some (c.toNat - 'a'.toNat + 26)
  else if '0' ≤ c && c ≤ '9' then some (c.toNat - '0'.toNat + 52)
  else if c = '+' then some 62
  else if c = '/' then some 63
  else none

/-- Decodes the letters after `count` letters of a group, of which the bits in `carried` are not used
    yet, and after `padding` equals signs. Signs that complete a group end the text. -/
def decodeFrom (count carried padding : Nat) : List Char → Option (List UInt8)
  | [] => if count = 0 then some [] else none
  | c :: rest =>
    if c = '=' then
      if 2 ≤ count && 4 ≤ count + padding + 1 then some []
      else decodeFrom count carried (if 2 ≤ count then padding + 1 else padding) rest
    else
      match letterValue? c with
      | none => decodeFrom count carried padding rest
      | some value =>
        match count with
        | 0 => decodeFrom 1 value 0 rest
        | 1 => (decodeFrom 2 (value % 16) 0 rest).map ((carried * 4 + value / 16).toUInt8 :: ·)
        | 2 => (decodeFrom 3 (value % 4) 0 rest).map ((carried * 16 + value / 4).toUInt8 :: ·)
        | _ => (decodeFrom 0 0 0 rest).map ((carried * 64 + value).toUInt8 :: ·)

def decode? (text : List Char) : Option (List UInt8) := decodeFrom 0 0 0 text

end Refit.Text.Base64
