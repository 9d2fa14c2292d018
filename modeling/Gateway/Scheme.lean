import Gateway.Text

set_option autoImplicit false

namespace Gateway

structure Scheme where
  text : Text
deriving DecidableEq

namespace Scheme

def http : Scheme := ⟨"http".toList⟩
def https : Scheme := ⟨"https".toList⟩

inductive Fault where
  | tooLong
  | invalid
deriving DecidableEq

def Fault.message : Fault → Text
  | tooLong => "scheme too long".toList
  | invalid => "invalid scheme".toList

def isChar (c : Char) : Bool := c.isAlphanum || "+-.~".toList.contains c

def read (s : Text) : Except Fault Scheme :=
  if 64 < (Text.utf8 s).length then .error .tooLong
  else if s.all isChar then .ok ⟨s⟩
  else .error .invalid

def same (a b : Scheme) : Bool := Text.same a.text b.text

def defaultPort? (s : Scheme) : Option UInt16 :=
  if s.same http then some 80 else if s.same https then some 443 else none

end Scheme

end Gateway
