import Gateway.Address.Ip

set_option autoImplicit false

namespace Gateway

-- Members keep their order, so that a key given twice can be told. Half of a surrogate pair has no
-- text, and of numbers only the natural ones have a value.
inductive Json where
  | null
  | bool (value : Bool)
  | natural (value : Nat)
  | number
  | string (text : Option Text)
  | array (items : List Json)
  | object (members : List (Option Text × Json))
deriving Inhabited

namespace Json

def isSpace (c : Char) : Bool := c = ' ' || c = '\n' || c = '\r' || c = '\t'

def skipSpace (s : Text) : Text := s.dropWhile isSpace

def hex4? : Text → Option (Nat × Text)
  | a :: b :: c :: d :: rest => (Address.hexNumber? 0 [a, b, c, d]).map fun n => (n, rest)
  | _ => none

def simpleEscape? : Char → Option Char
  | '"' => some '"'
  | '\\' => some '\\'
  | '/' => some '/'
  | 'b' => some '\x08'
  | 'f' => some '\x0c'
  | 'n' => some '\n'
  | 'r' => some '\r'
  | 't' => some '\t'
  | _ => none

inductive Piece where
  | char (c : Char)
  | unit (n : Nat)

def pieces? : Nat → List Piece → Text → Option (List Piece × Text)
  | 0, _, _ => none
  | _ + 1, _, [] => none
  | fuel + 1, done, c :: rest =>
    if c = '"' then some (done, rest)
    else if c = '\\' then
      match rest with
      | 'u' :: digits =>
        match hex4? digits with
        | some (n, rest) => pieces? fuel (.unit n :: done) rest
        | none => none
      | e :: rest =>
        match simpleEscape? e with
        | some c => pieces? fuel (.char c :: done) rest
        | none => none
      | [] => none
    else if c.toNat < 32 then none
    else pieces? fuel (.char c :: done) rest

-- Joins surrogate halves to characters; a half without its other half makes the text unreadable.
def text? : List Piece → Option Text
  | [] => some []
  | .char c :: rest => (text? rest).map (c :: ·)
  | .unit n :: rest =>
    if n < 0xD800 ∨ 0xDFFF < n then (text? rest).map (Char.ofNat n :: ·)
    else if n < 0xDC00 then
      match rest with
      | .unit m :: rest =>
        if 0xDC00 ≤ m ∧ m ≤ 0xDFFF then
          (text? rest).map (Char.ofNat (0x10000 + (n - 0xD800) * 0x400 + (m - 0xDC00)) :: ·)
        else none
      | _ => none
    else none

def string? (s : Text) : Option (Option Text × Text) :=
  (pieces? (s.length + 1) [] s).map fun (ps, rest) => (text? ps.reverse, rest)

def digits (s : Text) : Text × Text := (s.takeWhile Char.isDigit, s.dropWhile Char.isDigit)

def fraction? : Text → Option (Bool × Text)
  | '.' :: rest =>
    match digits rest with
    | ([], _) => none
    | (_, rest) => some (true, rest)
  | s => some (false, s)

def exponent? (s : Text) : Option (Bool × Text) :=
  match s with
  | 'e' :: rest => after rest
  | 'E' :: rest => after rest
  | _ => some (false, s)
where
  after (rest : Text) : Option (Bool × Text) :=
    let unsigned := match rest with
      | '+' :: more => more
      | '-' :: more => more
      | _ => rest
    match digits unsigned with
    | ([], _) => none
    | (_, rest) => some (true, rest)

def number? (negative : Bool) (s : Text) : Option (Json × Text) :=
  match digits s with
  | ([], _) => none
  | (ds, rest) =>
    if ds.head? = some '0' ∧ ds.length ≠ 1 then none
    else
      match fraction? rest with
      | none => none
      | some (fractional, rest) =>
        match exponent? rest with
        | none => none
        | some (scaled, rest) =>
          if negative ∨ fractional ∨ scaled then some (.number, rest)
          else
            some (.natural (ds.foldl (fun n c => n * 10 + (c.toNat - '0'.toNat)) 0), rest)

mutual

def value? : Nat → Text → Option (Json × Text)
  | 0, _ => none
  | fuel + 1, s =>
    match skipSpace s with
    | 'n' :: 'u' :: 'l' :: 'l' :: rest => some (.null, rest)
    | 't' :: 'r' :: 'u' :: 'e' :: rest => some (.bool true, rest)
    | 'f' :: 'a' :: 'l' :: 's' :: 'e' :: rest => some (.bool false, rest)
    | '"' :: rest => (string? rest).map fun (text, rest) => (.string text, rest)
    | '-' :: rest => number? true rest
    | '[' :: rest =>
      match skipSpace rest with
      | ']' :: rest => some (.array [], rest)
      | rest => (items? fuel [] rest).map fun (items, rest) => (.array items, rest)
    | '{' :: rest =>
      match skipSpace rest with
      | '}' :: rest => some (.object [], rest)
      | rest => (members? fuel [] rest).map fun (members, rest) => (.object members, rest)
    | rest => number? false rest

def items? : Nat → List Json → Text → Option (List Json × Text)
  | 0, _, _ => none
  | fuel + 1, done, s =>
    match value? fuel s with
    | none => none
    | some (value, rest) =>
      match skipSpace rest with
      | ',' :: rest => items? fuel (value :: done) rest
      | ']' :: rest => some ((value :: done).reverse, rest)
      | _ => none

def members? :
    Nat → List (Option Text × Json) → Text → Option (List (Option Text × Json) × Text)
  | 0, _, _ => none
  | fuel + 1, done, s =>
    match skipSpace s with
    | '"' :: rest =>
      match string? rest with
      | some (key, rest) =>
        match skipSpace rest with
        | ':' :: rest =>
          match value? fuel rest with
          | none => none
          | some (value, rest) =>
            match skipSpace rest with
            | ',' :: rest => members? fuel ((key, value) :: done) rest
            | '}' :: rest => some (((key, value) :: done).reverse, rest)
            | _ => none
        | _ => none
      | none => none
    | _ => none

end

def read? (s : Text) : Option Json :=
  match value? (2 * s.length + 2) s with
  | some (value, rest) => if (skipSpace rest).isEmpty then some value else none
  | none => none

end Json

end Gateway
