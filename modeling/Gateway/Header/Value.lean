import Gateway.Text

set_option autoImplicit false

namespace Gateway.Header

def isLegal (b : UInt8) : Bool := b == 9 || (decide (32 ≤ b) && b != 127)

def isVisible (b : UInt8) : Bool := b == 9 || (decide (32 ≤ b) && decide (b < 127))

structure Value where
  bytes : Bytes
  legal : bytes.all isLegal = true := by decide
deriving DecidableEq

namespace Value

def ofBytes? (bytes : Bytes) : Option Value :=
  if h : bytes.all isLegal = true then some ⟨bytes, h⟩ else none

def ofText? (s : Text) : Option Value := ofBytes? (Text.utf8 s)

def text? (v : Value) : Option Text :=
  if v.bytes.all isVisible then some (Text.ofLatin1 v.bytes) else none

def latin1 (v : Value) : Text := Text.ofLatin1 v.bytes

end Value

end Gateway.Header
