import Gateway.Scheme

set_option autoImplicit false

namespace Gateway

structure Uri where
  scheme : Option Scheme
  authority : Option Text
  -- The path, empty only where the target is an authority alone.
  path : Text
  query : Option Text
deriving DecidableEq

namespace Uri

def readTarget (s : Text) : Text × Option Text :=
  let s := s.takeWhile (· ≠ '#')
  match Text.cut '?' s with
  | some (path, query) => (path, some query)
  | none => (s, none)

def readScheme (s : Text) : Option (Scheme × Text) :=
  let head := s.takeWhile Scheme.isChar
  match s.drop head.length with
  | ':' :: '/' :: '/' :: rest =>
    if head.isEmpty then none
    else if Scheme.same ⟨head⟩ .http then some (.http, rest)
    else if Scheme.same ⟨head⟩ .https then some (.https, rest)
    else some (⟨head⟩, rest)
  | _ => none

def endsAuthority (c : Char) : Bool := c = '/' || c = '?' || c = '#'

def ofText (s : Text) : Uri :=
  match s with
  | '/' :: _ =>
    let (path, query) := readTarget s
    ⟨none, none, path, query⟩
  | ['*'] => ⟨none, none, s, none⟩
  | _ =>
    match readScheme s with
    | some (scheme, rest) =>
      let authority := rest.takeWhile (!endsAuthority ·)
      let (path, query) := readTarget (rest.drop authority.length)
      ⟨some scheme, some authority, if path.isEmpty then ['/'] else path, query⟩
    | none => ⟨none, some s, [], none⟩

def root : Uri := ⟨none, none, ['/'], none⟩

def render (u : Uri) : Text :=
  (match u.scheme with
    | some scheme => scheme.text ++ "://".toList
    | none => []) ++
  u.authority.getD [] ++ u.path ++
  (match u.query with
    | some query => '?' :: query
    | none => [])

end Uri

end Gateway
