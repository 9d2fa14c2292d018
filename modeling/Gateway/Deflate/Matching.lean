import Gateway.Deflate.Token

set_option autoImplicit false

namespace Gateway.Deflate

def windowSize : Nat := 32768

def shortestCopy : Nat := 3
def longestCopy : Nat := 258

-- Places by a number made of three octets, each place plus one. Another three may share the number,
-- so that a place is no more than a suggestion.
abbrev Places := Array Nat

namespace Places

def size : Nat := 8191

def empty : Places := Array.replicate size 0

def key (data : Array UInt8) (i : Nat) : Nat :=
  ((data.getD i 0).toNat * 65536 + (data.getD (i + 1) 0).toNat * 256 +
    (data.getD (i + 2) 0).toNat) % size

def note (places : Places) (data : Array UInt8) (i : Nat) : Places :=
  places.setIfInBounds (key data i) (i + 1)

def noteFrom (data : Array UInt8) : Nat → Nat → Places → Places
  | 0, _, places => places
  | n + 1, i, places => noteFrom data n (i + 1) (places.note data i)

def suggest? (places : Places) (data : Array UInt8) (i : Nat) : Option Nat :=
  match places.getD (key data i) 0 with
  | 0 => none
  | j + 1 => some j

end Places

def agreement (data : Array UInt8) : Nat → Nat → Nat → Nat
  | 0, _, _ => 0
  | limit + 1, j, i =>
    match data[j]?, data[i]? with
    | some a, some b => if a = b then agreement data limit (j + 1) (i + 1) + 1 else 0
    | _, _ => 0

def copyAt? (data : Array UInt8) (i j : Nat) : Option Token :=
  let length := agreement data longestCopy j i
  if j < i ∧ i - j ≤ windowSize ∧ shortestCopy ≤ length then some (.copy length (i - j)) else none

def tokenOf (data : Array UInt8) (i : Nat) : Option Token → Token × Nat
  | some (.copy length distance) => (.copy length distance, length)
  | _ => (.literal (data.getD i 0), 1)

def tokenAt (places : Places) (data : Array UInt8) (i : Nat) : Token × Nat :=
  tokenOf data i ((places.suggest? data i).bind (copyAt? data i))

def tokensFrom (data : Array UInt8) : Nat → Nat → Places → List Token
  | 0, _, _ => []
  | fuel + 1, i, places =>
    if i < data.size then
      let next := tokenAt places data i
      next.1 :: tokensFrom data fuel (i + next.2) (places.note data i)
    else []

def tokens (window block : Bytes) : List Token :=
  let data := (window ++ block).toArray
  tokensFrom data block.length window.length (Places.noteFrom data window.length 0 .empty)

end Gateway.Deflate
