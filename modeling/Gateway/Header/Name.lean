import Gateway.Text

set_option autoImplicit false

namespace Gateway.Header

def isName (s : Text) : Bool :=
  Token.isToken s && decide (s.length ≤ 65535) && Text.lower s == s

structure Name where
  text : Text
  legal : isName text = true := by decide
deriving DecidableEq

namespace Name

theorem lower_text (name : Name) : Text.lower name.text = name.text :=
  beq_iff_eq.mp (Bool.and_eq_true_iff.mp name.legal).2

def read? (s : Text) : Option Name :=
  if h : isName (Text.lower s) = true then some ⟨Text.lower s, h⟩ else none

def acceptEncoding : Name := ⟨"accept-encoding".toList, by decide⟩
def contentEncoding : Name := ⟨"content-encoding".toList, by decide⟩
def contentLength : Name := ⟨"content-length".toList, by decide⟩
def contentType : Name := ⟨"content-type".toList, by decide⟩
def etag : Name := ⟨"etag".toList, by decide⟩
def host : Name := ⟨"host".toList, by decide⟩
def ifNoneMatch : Name := ⟨"if-none-match".toList, by decide⟩
def vary : Name := ⟨"vary".toList, by decide⟩

end Name

end Gateway.Header
