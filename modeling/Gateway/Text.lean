set_option autoImplicit false

namespace Gateway

abbrev Text := List Char
abbrev Bytes := List UInt8

namespace Text

def isBlank (c : Char) : Bool :=
  let n := c.toNat
  (9 ≤ n && n ≤ 13) || n == 0x20 || n == 0x85 || n == 0xA0 || n == 0x1680 ||
    (0x2000 ≤ n && n ≤ 0x200A) || n == 0x2028 || n == 0x2029 || n == 0x202F || n == 0x205F ||
    n == 0x3000

def trimStart (s : Text) : Text := s.dropWhile isBlank

def trimEnd (s : Text) : Text := (s.reverse.dropWhile isBlank).reverse

def trim (s : Text) : Text := trimEnd (trimStart s)

def lower (s : Text) : Text := s.map Char.toLower

def upper (s : Text) : Text := s.map Char.toUpper

def same (a b : Text) : Bool := lower a == lower b

def split (separator : Char) : Text → List Text
  | [] => [[]]
  | c :: rest =>
    if c = separator then [] :: split separator rest
    else match split separator rest with
      | [] => [[c]]
      | part :: parts => (c :: part) :: parts

def join (separator : Text) : List Text → Text
  | [] => []
  | [part] => part
  | part :: parts => part ++ separator ++ join separator parts

def cut (mark : Char) : Text → Option (Text × Text)
  | [] => none
  | c :: rest =>
    if c = mark then some ([], rest)
    else (cut mark rest).map fun (before, after) => (c :: before, after)

def cutLast (mark : Char) : Text → Option (Text × Text)
  | [] => none
  | c :: rest =>
    match cutLast mark rest with
    | some (before, after) => some (c :: before, after)
    | none => if c = mark then some ([], rest) else none

def withoutEnd (ending s : Text) : Option Text :=
  if ending.isSuffixOf s then some (s.take (s.length - ending.length)) else none

def occursIn (needle : Text) : Text → Bool
  | [] => needle.isEmpty
  | c :: rest => needle.isPrefixOf (c :: rest) || occursIn needle rest

def utf8 (s : Text) : Bytes := s.flatMap String.utf8EncodeChar

def ofLatin1 (bytes : Bytes) : Text := bytes.map fun b => Char.ofNat b.toNat

def decimal (n : Nat) : Text := Nat.toDigits 10 n

end Text

-- Unsigned decimal numerals: an optional plus sign and then ASCII digits, at least one.
namespace Numeral

def digit? (c : Char) : Option Nat :=
  if c.isDigit then some (c.toNat - '0'.toNat) else none

def digits? (value : Nat) : Text → Option Nat
  | [] => some value
  | c :: rest => (digit? c).bind fun d => digits? (value * 10 + d) rest

def unsigned : Text → Text
  | '+' :: rest => rest
  | s => s

def read? (limit : Nat) (s : Text) : Option Nat :=
  match unsigned s with
  | [] => none
  | ds => (digits? 0 ds).filter (· ≤ limit)

end Numeral

namespace Token

def isChar (c : Char) : Bool :=
  c.isAlphanum || "!#$%&'*+-.^_|~".toList.contains c || c.toNat == 96

def isToken (s : Text) : Bool := !s.isEmpty && s.all isChar

end Token

end Gateway
