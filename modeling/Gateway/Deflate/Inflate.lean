import Gateway.Deflate.Block

set_option autoImplicit false

namespace Gateway.Deflate

def takeNumber (width : Nat) (bits : Bits) : Except Halt (Nat × Bits) :=
  let taken := bits.take width
  if taken.length = width then .ok (number taken, bits.drop width) else .error .short

def readBucket (buckets : Array Bucket) (i : Nat) (bits : Bits) : Except Halt (Nat × Bits) :=
  match buckets[i]? with
  | none => .error .invalid
  | some bucket => (takeNumber bucket.extra bits).map fun (n, rest) => (bucket.base + n, rest)

inductive Item where
  | token (t : Token)
  | stop

def readItem (literals distances : Code) (bits : Bits) : Except Halt (Item × Bits) := do
  let (symbol, bits) ← literals.read bits
  if symbol < endOfBlock then return (.token (.literal (UInt8.ofNat symbol)), bits)
  else if symbol = endOfBlock then return (.stop, bits)
  else
    let (length, bits) ← readBucket Bucket.lengths (symbol - 257) bits
    let (i, bits) ← distances.read bits
    let (distance, bits) ← readBucket Bucket.distances i bits
    return (.token (.copy length distance), bits)

-- Reads items up to the end of a block. Each takes a bit at least.
def readItems (literals distances : Code) : Nat → Bytes → Bits → Bytes × Except Halt Bits
  | 0, past, _ => (past, .error .invalid)
  | fuel + 1, past, bits =>
    match readItem literals distances bits with
    | .error halt => (past, .error halt)
    | .ok (.stop, bits) => (past, .ok bits)
    | .ok (.token t, bits) =>
      match t.apply past with
      | some past => readItems literals distances fuel past bits
      | none => (past, .error .invalid)

def readOctets : Nat → Bytes → Bits → Bytes × Except Halt Bits
  | 0, past, bits => (past, .ok bits)
  | n + 1, past, bits =>
    match takeNumber 8 bits with
    | .ok (b, bits) => readOctets n (UInt8.ofNat b :: past) bits
    | .error halt => (past, .error halt)

def align (bits : Bits) : Bits := bits.drop (bits.length % 8)

def readStored (past : Bytes) (bits : Bits) : Bytes × Except Halt Bits :=
  match takeNumber 16 (align bits) with
  | .error halt => (past, .error halt)
  | .ok (length, bits) =>
    match takeNumber 16 bits with
    | .error halt => (past, .error halt)
    | .ok (complement, bits) =>
      if length + complement = 65535 then readOctets length past bits
      else (past, .error .invalid)

def lengthOrder : List Nat := [16, 17, 18, 0, 8, 7, 9, 6, 10, 5, 11, 4, 12, 3, 13, 2, 14, 1, 15]

def readThrees : Nat → Bits → Except Halt (List Nat × Bits)
  | 0, bits => .ok ([], bits)
  | n + 1, bits => do
    let (x, bits) ← takeNumber 3 bits
    let (xs, bits) ← readThrees n bits
    return (x :: xs, bits)

-- Reads code lengths, some of which stand for repetitions; the latest length comes first.
def readLengths (code : Code) (total : Nat) : Nat → List Nat → Bits → Except Halt (List Nat × Bits)
  | 0, _, _ => .error .invalid
  | fuel + 1, done, bits =>
    if total < done.length then .error .invalid
    else if done.length = total then .ok (done.reverse, bits)
    else do
      let (symbol, bits) ← code.read bits
      if symbol < 16 then readLengths code total fuel (symbol :: done) bits
      else if symbol = 16 then
        match done with
        | [] => .error .invalid
        | last :: _ => do
          let (n, bits) ← takeNumber 2 bits
          readLengths code total fuel (List.replicate (n + 3) last ++ done) bits
      else if symbol = 17 then do
        let (n, bits) ← takeNumber 3 bits
        readLengths code total fuel (List.replicate (n + 3) 0 ++ done) bits
      else do
        let (n, bits) ← takeNumber 7 bits
        readLengths code total fuel (List.replicate (n + 11) 0 ++ done) bits

def isCode (lengths : List Nat) : Bool :=
  let weight (n : Nat) : Nat := if n = 0 then 0 else 1 <<< (Code.longest - n)
  decide (lengths.foldl (fun total n => total + weight n) 0 ≤ 1 <<< Code.longest)

def readCodes (bits : Bits) : Except Halt ((Code × Code) × Bits) := do
  let (literals, bits) ← takeNumber 5 bits
  let (distances, bits) ← takeNumber 5 bits
  let (n, bits) ← takeNumber 4 bits
  let (threes, bits) ← readThrees (n + 4) bits
  let given := lengthOrder.zip threes
  let lengths := (List.range 19).map fun i => ((given.find? (·.1 = i)).map (·.2)).getD 0
  if !isCode lengths then .error .invalid
  let total := literals + 257 + (distances + 1)
  let (all, bits) ← readLengths (Code.ofLengths lengths) total (total + 1) [] bits
  let first := all.take (literals + 257)
  let second := all.drop (literals + 257)
  if !isCode first || !isCode second || first.getD endOfBlock 0 = 0 then .error .invalid
  return ((Code.ofLengths first, Code.ofLengths second), bits)

def readBody (kind : Nat) (past : Bytes) (bits : Bits) : Bytes × Except Halt Bits :=
  match kind with
  | 0 => readStored past bits
  | 1 => readItems .fixedLiterals .fixedDistances (bits.length + 1) past bits
  | 2 =>
    match readCodes bits with
    | .ok ((literals, distances), bits) =>
      readItems literals distances (bits.length + 1) past bits
    | .error halt => (past, .error halt)
  | _ => (past, .error .invalid)

-- Reads blocks up to the last one. Each takes three bits at least.
def readBlocks : Nat → Bytes → Bits → Bytes × Except Halt Bits
  | 0, past, _ => (past, .error .invalid)
  | fuel + 1, past, bits =>
    match takeNumber 1 bits with
    | .error halt => (past, .error halt)
    | .ok (final, bits) =>
      match takeNumber 2 bits with
      | .error halt => (past, .error halt)
      | .ok (kind, bits) =>
        match readBody kind past bits with
        | (past, .ok bits) => if final = 1 then (past, .ok bits) else readBlocks fuel past bits
        | (past, .error halt) => (past, .error halt)

def read (stream : Bytes) : Bytes × Except Halt Bits :=
  let bits := unpack stream
  let (past, rest) := readBlocks (bits.length + 1) [] bits
  (past.reverse, rest)

def inflated (stream : Bytes) : Bytes := (read stream).1

def inflate? (stream : Bytes) : Option Bytes :=
  match read stream with
  | (data, .ok rest) => if rest.length < 8 then some data else none
  | (_, .error _) => none

end Gateway.Deflate
