import Gateway.Text.Hex

set_option autoImplicit false

namespace Gateway.Address

def group? (s : Text) : Option Nat :=
  if s.isEmpty || decide (4 < s.length) then none else hexNumber? 0 s

def octet? (s : Text) : Option Nat :=
  if s.isEmpty || decide (3 < s.length) || !s.all Char.isDigit then none
  else if s.head? = some '0' ∧ s.length ≠ 1 then none
  else
    let value := s.foldl (fun n c => n * 10 + (c.toNat - '0'.toNat)) 0
    if value ≤ 255 then some value else none

structure Ipv4 where
  octets : List Nat
deriving DecidableEq

namespace Ipv4

def read? (s : Text) : Option Ipv4 :=
  match (Text.split '.' s).mapM octet? with
  | some [a, b, c, d] => some ⟨[a, b, c, d]⟩
  | _ => none

def render (a : Ipv4) : Text := Text.join ['.'] (a.octets.map Text.decimal)

end Ipv4

structure Ipv6 where
  groups : List Nat
deriving DecidableEq

namespace Ipv6

-- The groups between colons; with `tail`, the last part may be a dotted address.
def parts? (tail : Bool) : List Text → Option (List Nat)
  | [] => some []
  | [part] =>
    match group? part with
    | some g => some [g]
    | none =>
      if tail then
        match Ipv4.read? part with
        | some ⟨[a, b, c, d]⟩ => some [a * 256 + b, c * 256 + d]
        | _ => none
      else none
  | part :: parts => (group? part).bind fun g => (parts? tail parts).map (g :: ·)

def side? (tail : Bool) (s : Text) : Option (List Nat) :=
  if s.isEmpty then some [] else parts? tail (Text.split ':' s)

def gap? : Text → Option (Text × Text)
  | ':' :: ':' :: rest => some ([], rest)
  | c :: rest => (gap? rest).map fun (before, after) => (c :: before, after)
  | [] => none

def read? (s : Text) : Option Ipv6 :=
  match gap? s with
  | none =>
    match side? true s with
    | some groups => if groups.length = 8 then some ⟨groups⟩ else none
    | none => none
  | some (before, after) =>
    match side? false before, side? true after with
    | some front, some back =>
      if front.length + back.length ≤ 7 then
        some ⟨front ++ List.replicate (8 - front.length - back.length) 0 ++ back⟩
      else none
    | _, _ => none

def zeros (groups : List Nat) : Nat := (groups.takeWhile (· = 0)).length

def longestRun : Nat → List Nat → Nat × Nat
  | _, [] => (0, 0)
  | i, g :: rest =>
    let here := zeros (g :: rest)
    let later := longestRun (i + 1) rest
    if later.2 ≤ here then (i, here) else later

def renderGroups (groups : List Nat) : Text :=
  Text.join [':'] (groups.map (Nat.toDigits 16))

-- The shortest text: the first longest run of two zero groups or more becomes `::`, and an address
-- that stands for an IPv4 address ends in its dotted form.
def render (a : Ipv6) : Text :=
  match a.groups with
  | [0, 0, 0, 0, 0, 0xffff, g, h] =>
    "::ffff:".toList ++ Ipv4.render ⟨[g / 256, g % 256, h / 256, h % 256]⟩
  | groups =>
    let (start, length) := longestRun 0 groups
    if 2 ≤ length then
      renderGroups (groups.take start) ++ "::".toList ++ renderGroups (groups.drop (start + length))
    else renderGroups groups

end Ipv6

end Gateway.Address
