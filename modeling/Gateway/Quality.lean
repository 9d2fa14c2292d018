import Gateway.Text

set_option autoImplicit false

namespace Gateway.Quality

structure Decimal where
  digits : Nat
  count : Nat
  exponent : Int

def natural (digits : Text) : Nat := digits.foldl (fun n c => n * 10 + (c.toNat - '0'.toNat)) 0

def mantissa? (s : Text) : Option (Decimal × Text) :=
  let whole := s.takeWhile Char.isDigit
  let rest := s.drop whole.length
  let (fraction, rest) := match rest with
    | '.' :: more => (more.takeWhile Char.isDigit, more.dropWhile Char.isDigit)
    | _ => ([], rest)
  let digits := whole ++ fraction
  if digits.isEmpty then none
  else some (⟨natural digits, digits.length, -(fraction.length : Int)⟩, rest)

def exponent? : Text → Option Int
  | [] => some 0
  | c :: rest =>
    if c = 'e' ∨ c = 'E' then
      match rest with
      | '-' :: digits => (numeral? digits).map fun n => -n
      | '+' :: digits => numeral? digits
      | digits => numeral? digits
    else none
where
  numeral? (digits : Text) : Option Int :=
    if digits.isEmpty || !digits.all Char.isDigit then none else some (natural digits)

def decimal? (s : Text) : Option Decimal :=
  (mantissa? s).bind fun (d, rest) =>
    (exponent? rest).map fun e => { d with exponent := d.exponent + e }

-- Above zero in single precision is what exceeds 2^-150, half of the smallest number there. A
-- number below 10^-46 does not.
def Decimal.isPositive (d : Decimal) : Bool :=
  if d.digits = 0 then false
  else if 0 ≤ d.exponent then true
  else if (d.count : Int) + 46 ≤ -d.exponent then false
  else decide (Nat.pow 10 d.exponent.natAbs < d.digits * Nat.pow 2 150)

def isInfinite (s : Text) : Bool := Text.same s "inf".toList || Text.same s "infinity".toList

def unsigned : Text → Bool × Text
  | '-' :: rest => (true, rest)
  | '+' :: rest => (false, rest)
  | s => (false, s)

def isPositive? (s : Text) : Option Bool :=
  let (negative, s) := unsigned s
  match decimal? s with
  | some d => some (!negative && d.isPositive)
  | none =>
    if isInfinite s then some !negative
    else if Text.same s "nan".toList then some false
    else none

end Gateway.Quality
