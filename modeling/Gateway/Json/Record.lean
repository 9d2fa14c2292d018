import Gateway.Json

set_option autoImplicit false

namespace Gateway.Json

abbrev Given := List (Text × Json)

-- The given values of a record with the named fields. Other members of an object are passed over; a
-- key without a text, a field given twice, or an array with more items than fields is an error.
def given? (fields : List Text) : Json → Option Given
  | .object members =>
    match members.mapM fun (key, value) => key.map fun key => (key, value) with
    | none => none
    | some members =>
      let known := members.filter fun (key, _) => fields.contains key
      if (known.map (·.1)).Nodup then some known else none
  | .array items =>
    if items.length ≤ fields.length then some (fields.zip items) else none
  | _ => none

def field? {α : Type} (given : Given) (name : String) (as : Json → Option α) (default : α) :
    Option α :=
  match given.find? (·.1 = name.toList) with
  | some (_, value) => as value
  | none => some default

def asBool? : Json → Option Bool
  | .bool b => some b
  | _ => none

def asNat? (limit : Nat) : Json → Option Nat
  | .natural n => if n ≤ limit then some n else none
  | _ => none

def asText? : Json → Option Text
  | .string text => text
  | _ => none

def asOptional? : Json → Option (Option Text)
  | .null => some none
  | value => (asText? value).map some

def asTexts? : Json → Option (List Text)
  | .array items => items.mapM asText?
  | _ => none

def ofOptional : Option Text → Json
  | none => .null
  | some text => .string (some text)

def ofTexts (texts : List Text) : Json := .array (texts.map fun text => .string (some text))

end Gateway.Json
