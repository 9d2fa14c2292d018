import Gateway.Deflate.Code
import Gateway.Deflate.Matching

set_option autoImplicit false

namespace Gateway.Deflate

def endOfBlock : Nat := 256

def lengthBits (length : Nat) : Bits :=
  let i := Bucket.indexOf Bucket.lengths length Bucket.lengths.size
  let bucket := Bucket.lengths.getD i ⟨length, 0⟩
  Code.fixedBits (257 + i) ++ bitsOf bucket.extra (length - bucket.base)

def distanceBits (distance : Nat) : Bits :=
  let i := Bucket.indexOf Bucket.distances distance Bucket.distances.size
  let bucket := Bucket.distances.getD i ⟨distance, 0⟩
  codeBits 5 i ++ bitsOf bucket.extra (distance - bucket.base)

def Token.bits : Token → Bits
  | literal b => Code.fixedBits b.toNat
  | copy length distance => lengthBits length ++ distanceBits distance

def marker : Bytes := [0x00, 0x00, 0xFF, 0xFF]

def tokenBlock (final : Bool) (ts : List Token) : Bytes :=
  let body := [final, true, false] ++ ts.flatMap Token.bits ++ Code.fixedBits endOfBlock
  if final then pack body else pack (body ++ [false, false, false]) ++ marker

def octets2 (n : Nat) : Bytes := [UInt8.ofNat (n % 256), UInt8.ofNat (n / 256 % 256)]

def storedBlock (final : Bool) (block : Bytes) : Bytes :=
  [if final then 1 else 0] ++ octets2 block.length ++ octets2 (65535 - block.length) ++ block

def slide (window block : Bytes) : Bytes :=
  let all := window ++ block
  all.drop (all.length - windowSize)

def writeBlock (level : Nat) (window : Bytes) (final : Bool) (block : Bytes) : Bytes :=
  if level = 0 then storedBlock final block else tokenBlock final (tokens window block)

def blockSize : Nat := 8192

def blocksOf (data : Bytes) : List Bytes :=
  if _h : data = [] then []
  else data.take blockSize :: blocksOf (data.drop blockSize)
termination_by data.length
decreasing_by
  have := List.length_pos_iff.mpr _h
  simp only [List.length_drop, blockSize]
  omega

-- Blocks in order. With `closing` the last one ends the stream, and if there is none an empty one
-- does.
def writeBlocks (level : Nat) (closing : Bool) : Bytes → List Bytes → Bytes
  | window, [] => if closing then writeBlock level window true [] else []
  | window, [block] => writeBlock level window closing block
  | window, block :: rest =>
    writeBlock level window false block ++ writeBlocks level closing (slide window block) rest

end Gateway.Deflate
