import Gateway.Text

set_option autoImplicit false

namespace Gateway.Gzip

inductive State where
  | mightCompress
  | notCompressing
  | committing
  | compressing
  | finished
deriving DecidableEq

namespace State

def all : List State := [mightCompress, notCompressing, committing, compressing, finished]

def name : State → Text
  | mightCompress => "MIGHT_COMPRESS".toList
  | notCompressing => "NOT_COMPRESSING".toList
  | committing => "COMMITTING".toList
  | compressing => "COMPRESSING".toList
  | finished => "FINISHED".toList

def number : State → Nat
  | mightCompress => 0
  | notCompressing => 1
  | committing => 2
  | compressing => 3
  | finished => 4

def exchange (actual expected next : State) : Except State State :=
  if actual = expected then .ok next else .error actual

end State

end Gateway.Gzip
