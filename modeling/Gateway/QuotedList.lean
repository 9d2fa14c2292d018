import Gateway.Error

set_option autoImplicit false

namespace Gateway.QuotedList

-- One of for="[2001:db8::1]:4711";proto=https, for=192.0.2.43
-- with its names in small letters.
structure Element where
  value : Option Text
  params : List (Text × Text)
deriving DecidableEq

namespace Element

def empty : Element := ⟨none, []⟩

def param? (e : Element) (name : Text) : Option Text :=
  (e.params.find? (·.1 = name)).map (·.2)

end Element

-- Where a reader stands with respect to quoted strings. A backslash escapes the next character
-- inside one and is an ordinary character outside.
inductive Scan where
  | outside
  | inside
  | escaped
deriving DecidableEq

namespace Scan

def next : Scan → Char → Scan
  | outside, c => if c = '"' then inside else outside
  | inside, c => if c = '"' then outside else if c = '\\' then escaped else inside
  | escaped, _ => inside

def closed (q : Scan) : Bool := q = outside

end Scan

def scan (q : Scan) (s : Text) : Scan := s.foldl Scan.next q

def parts (separator : Char) (q : Scan) : Text → List Text
  | [] => [[]]
  | c :: rest =>
    if c = separator ∧ q = .outside then [] :: parts separator .outside rest
    else match parts separator (q.next c) rest with
      | [] => [[c]]
      | part :: more => (c :: part) :: more

def split (separator : Char) (s : Text) : Except ParseError (List Text) :=
  if (scan .outside s).closed then .ok (parts separator .outside s)
  else .error (.invalidQuotedList
    ("unterminated quoted string in `".toList ++ s ++ "`".toList))

def cut (mark : Char) (q : Scan) : Text → Option (Text × Text)
  | [] => none
  | c :: rest =>
    if c = mark ∧ q = .outside then some ([], rest)
    else (cut mark (q.next c) rest).map fun (before, after) => (c :: before, after)

def unquote (q : Scan) : Text → Text
  | [] => []
  | c :: rest =>
    if q ≠ .escaped ∧ (c = '"' ∨ (c = '\\' ∧ q = .inside)) then unquote (q.next c) rest
    else c :: unquote (q.next c) rest

inductive Segment where
  | blank
  | word (text : Text)
  | param (name value : Text)
deriving DecidableEq

-- Reads a segment; none is a parameter without a name.
def readSegment (raw : Text) : Option Segment :=
  let s := Text.trim raw
  if s.isEmpty then some .blank
  else match cut '=' .outside s with
    | some (name, value) =>
      if (Text.trim name).isEmpty then none
      else some (.param (Text.lower (Text.trim name)) (unquote .outside (Text.trim value)))
    | none => some (.word s)

-- Adds a segment to an element. A word is the bare value where it comes first and otherwise a
-- parameter without a value.
def addSegment (first : Bool) (e : Element) : Segment → Element
  | .blank => e
  | .word text =>
    if first then { e with value := some (unquote .outside text) }
    else { e with params := e.params ++ [(Text.lower text, [])] }
  | .param name value => { e with params := e.params ++ [(name, value)] }

def readSegments (whole : Text) : Bool → Element → List Text → Except ParseError Element
  | _, e, [] => .ok e
  | first, e, raw :: rest =>
    match readSegment raw with
    | none => .error (.invalidQuotedList
        ("empty parameter name in `".toList ++ whole ++ "`".toList))
    | some segment => readSegments whole false (addSegment first e segment) rest

def readElement (whole raw : Text) : Except ParseError (List Element) :=
  if (Text.trim raw).isEmpty then .ok []
  else do
    let segments ← split ';' raw
    let e ← readSegments whole true .empty segments
    if e.value.isSome ∨ e.params ≠ [] then .ok [e] else .ok []

def readElements (whole : Text) : List Text → Except ParseError (List Element)
  | [] => .ok []
  | raw :: rest => do
    let first ← readElement whole raw
    let others ← readElements whole rest
    .ok (first ++ others)

def read (value : Text) : Except ParseError (List Element) := do
  let raws ← split ',' value
  readElements value raws

def readAll : List Text → Except ParseError (List Element)
  | [] => .ok []
  | value :: rest => do
    let first ← read value
    let others ← readAll rest
    .ok (first ++ others)

end Gateway.QuotedList
