import Gateway.Checksum
import Gateway.Deflate.Inflate

set_option autoImplicit false

namespace Gateway.Gzip

-- Magic number, compression method, no flags, no time, unknown system.
def header : Bytes := [0x1f, 0x8b, 0x08, 0, 0, 0, 0, 0, 0, 0]

def headerSize : Nat := 10

def trailerSize : Nat := 8

def littleEndian (n : UInt32) : Bytes :=
  [n.toUInt8, (n >>> 8).toUInt8, (n >>> 16).toUInt8, (n >>> 24).toUInt8]

def readLittleEndian (b : Bytes) : UInt32 :=
  b.foldr (fun x n => n <<< 8 ||| x.toUInt32) 0

def trailer (c : Checksum) : Bytes := littleEndian c.sum ++ littleEndian c.amount

structure Member where
  head : Bytes
  stream : Bytes
  checksum : UInt32
  length : UInt32

namespace Member

def cut? (body : Bytes) : Option Member :=
  let n := body.length
  if n < headerSize + trailerSize then none
  else
    let ending := body.drop (n - trailerSize)
    some {
      head := body.take headerSize
      stream := (body.take (n - trailerSize)).drop headerSize
      checksum := readLittleEndian (ending.take 4)
      length := readLittleEndian (ending.drop 4) }

def data? (m : Member) : Option Bytes := Deflate.inflate? m.stream

end Member

end Gateway.Gzip
