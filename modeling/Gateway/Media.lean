import Gateway.Text

set_option autoImplicit false

namespace Gateway

structure Media where
  main : Text
  sub : Text
deriving DecidableEq

namespace Media

def isQuotable (c : Char) : Bool := decide (31 < c.toNat) && c.toNat != 127

inductive Rest where
  | ended
  | more (text : Text)
  | fault

def afterQuoted (s : Text) : Rest :=
  match s.dropWhile (· = ' ') with
  | [] => .ended
  | ';' :: rest => .more rest
  | _ => .fault

def quotedRest : Text → Rest
  | [] => .fault
  | c :: s =>
    if !isQuotable c then .fault
    else match s.dropWhile fun c => isQuotable c && c != '"' with
      | '"' :: rest => afterQuoted rest
      | _ => .fault

-- What follows a plain value. It may be empty only at the end of the text.
def plainRest (s : Text) : Rest :=
  let value := s.takeWhile Token.isChar
  match s.drop value.length with
  | [] => .ended
  | ';' :: rest => if value.isEmpty then .fault else .more rest
  | _ => .fault

def valueRest : Text → Rest
  | '"' :: rest => quotedRest rest
  | s => plainRest s

def paramRest (s : Text) : Rest :=
  let name := s.takeWhile Token.isChar
  match s.drop name.length with
  | '=' :: rest => if name.isEmpty then .fault else valueRest rest
  | _ => .fault

def areParams : Nat → Text → Bool
  | 0, _ => false
  | fuel + 1, s =>
    match s.dropWhile (· = ' ') with
    | [] => true
    | s =>
      match paramRest s with
      | .ended => true
      | .more rest => areParams fuel rest
      | .fault => false

-- Reads what stands behind the slash. The subtype may be empty only where no parameters follow.
def readSub (main s : Text) : Option Media :=
  let sub := s.takeWhile Token.isChar
  let media : Media := ⟨Text.lower main, Text.lower sub⟩
  match s.drop sub.length with
  | [] => some media
  | ';' :: params =>
    if sub.isEmpty then none
    else if areParams (params.length + 1) params then some media else none
  | _ => none

def read? (s : Text) : Option Media :=
  if s = "*/*".toList then some ⟨['*'], ['*']⟩
  else
    let main := s.takeWhile Token.isChar
    match s.drop main.length with
    | '/' :: rest => if main.isEmpty then none else readSub main rest
    | _ => none

def essence (m : Media) : Text := m.main ++ ['/'] ++ m.sub

end Media

end Gateway
