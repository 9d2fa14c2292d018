import Gateway.Header.Map

set_option autoImplicit false

namespace Gateway.Gzip

namespace Tag

def mark : Text := "--gzip".toList

def gzip (tag : Text) : Text :=
  match Text.withoutEnd ['"'] tag with
  | some inside => inside ++ mark ++ ['"']
  | none => tag ++ mark

def isMarked (tags : Text) : Bool := Text.occursIn mark tags

def strip (tags : Text) : Text :=
  match tags with
  | [] => []
  | c :: rest =>
    if mark.isPrefixOf (c :: rest) then strip (rest.drop (mark.length - 1)) else c :: strip rest
termination_by tags.length
decreasing_by
  all_goals simp only [List.length_drop, List.length_cons]
  all_goals omega

end Tag

namespace Vary

def names (s : Text) : List Text :=
  ((Text.split ',' s).map Text.trim).filter (!·.isEmpty)

def listed (m : Header.Map) : List Text :=
  ((m.getAll .vary).filterMap Header.Value.text?).flatMap names

def isListed (present : List Text) (name : Text) : Bool :=
  present.any fun p => p = ['*'] || Text.same p name

def ensure (m : Header.Map) (vary : Header.Value) : Header.Map :=
  match vary.text? with
  | none => m
  | some wanted =>
    match listed m with
    | [] => m.insert .vary vary
    | present =>
      match (names wanted).filter (!isListed present ·) with
      | [] => m
      | missing =>
        match Header.Value.ofText? (Text.join ", ".toList (present ++ missing)) with
        | some value => m.insert .vary value
        | none => m

def ensure? (m : Header.Map) : Option Header.Value → Header.Map
  | some vary => ensure m vary
  | none => m

end Vary

end Gateway.Gzip
