import Gateway.Text

set_option autoImplicit false

namespace Gateway.Deflate

inductive Token where
  | literal (octet : UInt8)
  | copy (length distance : Nat)
deriving DecidableEq

-- Appends octets that are found a fixed distance back, one by one, so that a copy may run into
-- itself. The past has its latest octet first.
def copyBack (distance : Nat) : Nat → Bytes → Option Bytes
  | 0, past => some past
  | n + 1, past =>
    match past[distance - 1]? with
    | some b => copyBack distance n (b :: past)
    | none => none

namespace Token

def apply (past : Bytes) : Token → Option Bytes
  | literal b => some (b :: past)
  | copy length distance => if distance = 0 then none else copyBack distance length past

def expand (past : Bytes) : List Token → Option Bytes
  | [] => some past
  | t :: rest =>
    match t.apply past with
    | some past => expand past rest
    | none => none

end Token

end Gateway.Deflate
