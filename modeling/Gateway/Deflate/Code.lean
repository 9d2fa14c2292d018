import Gateway.Text

set_option autoImplicit false

namespace Gateway.Deflate

abbrev Bits := List Bool

def number (bits : Bits) : Nat := bits.foldr (fun b n => b.toNat + 2 * n) 0

def bitsOf : Nat → Nat → Bits
  | 0, _ => []
  | width + 1, n => (n % 2 = 1) :: bitsOf width (n / 2)

-- Codewords go out from their most significant bit on.
def codeBits (width n : Nat) : Bits := (bitsOf width n).reverse

def pack : Bits → Bytes
  | b0 :: b1 :: b2 :: b3 :: b4 :: b5 :: b6 :: b7 :: rest =>
    UInt8.ofNat (number [b0, b1, b2, b3, b4, b5, b6, b7]) :: pack rest
  | [] => []
  | bits => [UInt8.ofNat (number bits)]

def unpack (bytes : Bytes) : Bits := bytes.flatMap fun b => bitsOf 8 b.toNat

inductive Halt where
  | short
  | invalid
deriving DecidableEq

structure Code where
  counts : List Nat
  symbols : Array Nat

namespace Code

def longest : Nat := 15

def ofLength (lengths : List Nat) (n : Nat) : List Nat :=
  (lengths.zipIdx.filter (·.1 = n)).map (·.2)

def ofLengths (lengths : List Nat) : Code :=
  let byLength := (List.range longest).map fun n => ofLength lengths (n + 1)
  ⟨byLength.map List.length, byLength.flatten.toArray⟩

-- Reads a symbol bit by bit. Of the codewords of one length, `first` is the least and `index` the
-- place of its symbol.
def readFrom (symbols : Array Nat) : List Nat → Nat → Nat → Nat → Bits → Except Halt (Nat × Bits)
  | [], _, _, _, _ => .error .invalid
  | _ :: _, _, _, _, [] => .error .short
  | count :: counts, code, first, index, b :: rest =>
    let code := code + b.toNat
    if code < first + count then
      match symbols[index + (code - first)]? with
      | some symbol => .ok (symbol, rest)
      | none => .error .invalid
    else readFrom symbols counts (2 * code) (2 * (first + count)) (index + count) rest

def read (c : Code) (bits : Bits) : Except Halt (Nat × Bits) :=
  readFrom c.symbols c.counts 0 0 0 bits

def fixedLengths : List Nat :=
  List.replicate 144 8 ++ List.replicate 112 9 ++ List.replicate 24 7 ++ List.replicate 8 8

def fixedLiterals : Code := ofLengths fixedLengths
def fixedDistances : Code := ofLengths (List.replicate 30 5)

def fixedBits (symbol : Nat) : Bits :=
  if symbol < 144 then codeBits 8 (0x30 + symbol)
  else if symbol < 256 then codeBits 9 (0x190 + (symbol - 144))
  else if symbol < 280 then codeBits 7 (symbol - 256)
  else codeBits 8 (0xC0 + (symbol - 280))

end Code

structure Bucket where
  base : Nat
  extra : Nat
deriving DecidableEq

namespace Bucket

def lengths : Array Bucket :=
  #[⟨3, 0⟩, ⟨4, 0⟩, ⟨5, 0⟩, ⟨6, 0⟩, ⟨7, 0⟩, ⟨8, 0⟩, ⟨9, 0⟩, ⟨10, 0⟩, ⟨11, 1⟩, ⟨13, 1⟩, ⟨15, 1⟩,
    ⟨17, 1⟩, ⟨19, 2⟩, ⟨23, 2⟩, ⟨27, 2⟩, ⟨31, 2⟩, ⟨35, 3⟩, ⟨43, 3⟩, ⟨51, 3⟩, ⟨59, 3⟩, ⟨67, 4⟩,
    ⟨83, 4⟩, ⟨99, 4⟩, ⟨115, 4⟩, ⟨131, 5⟩, ⟨163, 5⟩, ⟨195, 5⟩, ⟨227, 5⟩, ⟨258, 0⟩]

def distances : Array Bucket :=
  #[⟨1, 0⟩, ⟨2, 0⟩, ⟨3, 0⟩, ⟨4, 0⟩, ⟨5, 1⟩, ⟨7, 1⟩, ⟨9, 2⟩, ⟨13, 2⟩, ⟨17, 3⟩, ⟨25, 3⟩, ⟨33, 4⟩,
    ⟨49, 4⟩, ⟨65, 5⟩, ⟨97, 5⟩, ⟨129, 6⟩, ⟨193, 6⟩, ⟨257, 7⟩, ⟨385, 7⟩, ⟨513, 8⟩, ⟨769, 8⟩,
    ⟨1025, 9⟩, ⟨1537, 9⟩, ⟨2049, 10⟩, ⟨3073, 10⟩, ⟨4097, 11⟩, ⟨6145, 11⟩, ⟨8193, 12⟩,
    ⟨12289, 12⟩, ⟨16385, 13⟩, ⟨24577, 13⟩]

def indexOf (buckets : Array Bucket) (value : Nat) : Nat → Nat
  | 0 => 0
  | n + 1 =>
    match buckets[n]? with
    | some bucket => if bucket.base ≤ value then n else indexOf buckets value n
    | none => indexOf buckets value n

end Bucket

end Gateway.Deflate
