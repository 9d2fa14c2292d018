import Gateway.Text

set_option autoImplicit false

namespace Gateway

structure Checksum where
  register : UInt32
  count : Nat
deriving DecidableEq

namespace Checksum

def shift (r : UInt32) : UInt32 :=
  if r &&& 1 = 1 then (r >>> 1) ^^^ 0xEDB88320 else r >>> 1

def shift8 (r : UInt32) : UInt32 :=
  shift (shift (shift (shift (shift (shift (shift (shift r)))))))

def octet (r : UInt32) (b : UInt8) : UInt32 :=
  shift8 ((r ^^^ b.toUInt32) &&& 0xFF) ^^^ (r >>> 8)

def start : Checksum := ⟨0xFFFFFFFF, 0⟩

def add (c : Checksum) (bytes : Bytes) : Checksum :=
  ⟨bytes.foldl octet c.register, c.count + bytes.length⟩

def sum (c : Checksum) : UInt32 := c.register ^^^ 0xFFFFFFFF

def amount (c : Checksum) : UInt32 := UInt32.ofNat c.count

def ofBytes (bytes : Bytes) : UInt32 := (start.add bytes).sum

end Checksum

end Gateway
