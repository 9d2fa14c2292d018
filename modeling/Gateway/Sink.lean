import Gateway.Error
import Gateway.Request

set_option autoImplicit false

namespace Gateway

structure Head where
  status : Nat
  version : Version
  headers : Header.Map
deriving DecidableEq

namespace Head

def empty : Head := ⟨200, .http11, .empty⟩

def isGzip (h : Head) : Bool :=
  (h.headers.get? .contentEncoding).any fun value => value.bytes = Text.utf8 "gzip".toList

end Head

-- The head may be edited until the first write commits it; a last write ends the response.
class Sink (σ : Type) where
  head : σ → Head
  setHead : σ → Head → σ
  isCommitted : σ → Bool
  write : σ → Bool → Option Bytes → σ × Sent

end Gateway
