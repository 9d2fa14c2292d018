import Gateway.Header.Map

set_option autoImplicit false

namespace Gateway

inductive PayloadItem where
  | chunk (data : Bytes)
  | eof
deriving DecidableEq

namespace PayloadItem

def isEof : PayloadItem → Bool
  | eof => true
  | chunk _ => false

def data? : PayloadItem → Option Bytes
  | chunk data => some data
  | eof => none

end PayloadItem

structure SizeHint where
  lower : Nat
  upper : Option Nat
deriving DecidableEq

namespace SizeHint

def exact (n : Nat) : SizeHint := ⟨n, some n⟩

def unknown : SizeHint := ⟨0, none⟩

def certain? (h : SizeHint) : Option Nat :=
  if h.upper = some h.lower then some h.lower else none

end SizeHint

inductive PayloadSize where
  | length (octets : Nat)
  | chunked
  | empty
deriving DecidableEq

namespace PayloadSize

def isChunked (s : PayloadSize) : Bool := s = chunked

def isEmpty (s : PayloadSize) : Bool := s = empty

def ofLength? : Option Nat → PayloadSize
  | some 0 => empty
  | some n => length n
  | none => chunked

def ofHeaders (headers : Header.Map) : PayloadSize :=
  ofLength? (((headers.get? .contentLength).bind Header.Value.text?).bind fun text =>
    Numeral.read? (UInt64.size - 1) (Text.trim text))

def ofHint (h : SizeHint) : PayloadSize := ofLength? h.certain?

def hint : PayloadSize → SizeHint
  | length n => .exact n
  | chunked => .unknown
  | empty => .exact 0

end PayloadSize

end Gateway
