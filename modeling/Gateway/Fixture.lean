import Gateway.Request

set_option autoImplicit false

namespace Gateway

structure Fixture where
  headers : List (Text × Text)
  body : Text
  times : Nat
deriving DecidableEq

namespace Fixture

def ofHeaders (headers : List (Text × Text)) : Fixture := ⟨headers, [], 0⟩

def lines (f : Fixture) : List Header.Line :=
  f.headers.filterMap fun (name, value) =>
    match Header.Name.read? name, Header.Value.ofText? value with
    | some name, some value => some (name, value)
    | _, _ => none

def message (f : Fixture) : Message :=
  { method := "GET".toList
    uri := .root
    version := .http11
    headers := .ofLines f.lines }

def content (f : Fixture) : Text := (List.replicate f.times f.body).flatten

def contentLength (f : Fixture) : Nat := (Text.utf8 f.body).length * f.times

end Fixture

inductive TestGroup where
  | small
  | normal
  | large
deriving DecidableEq

def TestGroup.name : TestGroup → Text
  | small => "Small".toList
  | normal => "Normal".toList
  | large => "Large".toList

structure TestCase where
  name : Text
  group : TestGroup
  fixture : Fixture
deriving DecidableEq

end Gateway
