import Gateway.Text

set_option autoImplicit false

namespace Gateway

namespace Address

def hexDigit? (c : Char) : Option Nat :=
  if c.isDigit then some (c.toNat - '0'.toNat)
  else if 'a' ≤ c ∧ c ≤ 'f' then some (c.toNat - 'a'.toNat + 10)
  else if 'A' ≤ c ∧ c ≤ 'F' then some (c.toNat - 'A'.toNat + 10)
  else none

def hexNumber? (value : Nat) : Text → Option Nat
  | [] => some value
  | c :: rest => (hexDigit? c).bind fun d => hexNumber? (value * 16 + d) rest

end Address

namespace Hex

def digits (width n : Nat) : Text :=
  let ds := Nat.toDigits 16 n
  List.replicate (width - ds.length) '0' ++ ds

def write (bytes : Bytes) : Text := bytes.flatMap fun b => digits 2 b.toNat

def read? : Text → Option Bytes
  | [] => some []
  | [_] => none
  | a :: b :: rest =>
    match Address.hexNumber? 0 [a, b], read? rest with
    | some n, some bytes => some (UInt8.ofNat n :: bytes)
    | _, _ => none

end Hex

end Gateway
