import Gateway.Forwarding.Candidate
import Gateway.Forwarding.Role
import Gateway.QuotedList
import Gateway.Scheme

set_option autoImplicit false

namespace Gateway.Forwarding

inductive Evidence where
  | authority (value : Authority) (priority : Priority)
  | authorityPort (port : UInt16) (priority : Priority)
  | remote (value : Authority) (priority : Priority)
  | remotePort (port : UInt16) (priority : Priority)
  | proto (scheme : Scheme) (priority : Priority)
  | cipherSuite (value : Text)
  | sslSessionId (value : Text)
deriving DecidableEq

namespace Evidence

def leftMost (value : Text) : Option Text :=
  let first := Text.trim (value.takeWhile (· ≠ ','))
  if first.isEmpty then none else some first

def isObfuscated (value : Text) : Bool := value.head? = some '_' || value = "unknown".toList

def readScheme (s : Text) : Except ParseError Scheme :=
  match Scheme.read s with
  | .ok scheme => .ok scheme
  | .error e =>
    .error (.invalidHeader ("invalid scheme `".toList ++ s ++ "`: ".toList ++ e.message))

def ofPort (c : Config) (port : UInt16) (p : Priority) : Evidence :=
  if c.portAsAuthority then authorityPort port p else remotePort port p

def ofScheme (s : Scheme) (p : Priority) : List Evidence :=
  match s.defaultPort? with
  | some port => [authorityPort port p]
  | none => []

def ofParam (c : Config) : Text × Text → Except ParseError (List Evidence)
  | (name, value) =>
    if value.isEmpty then .ok []
    else if name = "by".toList then
      if c.proxyAsAuthority ∧ ¬ isObfuscated value then
        (Authority.read value).map fun a => [authority a .forwarded]
      else .ok []
    else if name = "for".toList then
      if isObfuscated value then .ok []
      else (Authority.read value).map fun a => [remote a .forwarded]
    else if name = "host".toList then
      if isObfuscated value then .ok []
      else (Authority.read value).map fun a => [authority a .forwarded]
    else if name = "proto".toList then
      (readScheme value).map fun s => proto s .forwarded :: ofScheme s .forwarded
    else .ok []

def ofParams (c : Config) : List (Text × Text) → Except ParseError (List Evidence)
  | [] => .ok []
  | param :: rest => do
    let first ← ofParam c param
    let others ← ofParams c rest
    .ok (first ++ others)

def ofElement (c : Config) (e : QuotedList.Element) : Except ParseError (List Evidence) :=
  if e.value.isSome then .ok [] else ofParams c e.params

def ofElements (c : Config) : List QuotedList.Element → Except ParseError (List Evidence)
  | [] => .ok []
  | e :: rest => do
    let first ← ofElement c e
    let others ← ofElements c rest
    .ok (first ++ others)

def ofLeftMost (value : Text) (evidence : Authority → Evidence) :
    Except ParseError (List Evidence) :=
  match leftMost value with
  | none => .ok []
  | some host => (Authority.read host).map fun a => [evidence a]

def ofText (c : Config) (role : Role) (value : Text) : Except ParseError (List Evidence) :=
  match role with
  | .forwarded => do
    let elements ← QuotedList.read value
    ofElements c elements
  | .host => ofLeftMost value (authority · .forwardedHost)
  | .server =>
    if c.proxyAsAuthority then ofLeftMost value (authority · .forwardedServer) else .ok []
  | .for_ => ofLeftMost value (remote · .forwardedFor)
  | .port =>
    match leftMost value with
    | none => .ok []
    | some port => (Authority.readPort port).map fun p => [ofPort c p .forwardedPort]
  | .proto =>
    match leftMost value with
    | none => .ok []
    | some text => (readScheme text).map fun s => ofScheme s .forwardedProto ++ [proto s .forwardedProto]
  | .https =>
    let answer := Text.trim value
    if Text.same answer "on".toList ∨ Text.same answer "true".toList then
      .ok [proto .https .proxiedHttps, ofPort c 443 .proxiedHttps]
    else .ok []
  | .cipherSuite => .ok []
  | .sslSessionId => .ok []

-- What a line says in its role. TLS evidence is taken as it stands; all other lines must be
-- readable.
def ofLine (c : Config) (role : Role) (value : Header.Value) : Except ParseError (List Evidence) :=
  match role with
  | .cipherSuite => .ok [cipherSuite value.latin1]
  | .sslSessionId => .ok [sslSessionId value.latin1]
  | _ =>
    match value.text? with
    | some text => ofText c role text
    | none => .error (.invalidHeader "failed to convert header to a str".toList)

end Evidence

structure Context where
  authority : Candidate
  remote : Candidate
  proto : Option (Scheme × Priority)
  cipherSuite : Option Text
  sslSessionId : Option Text
deriving DecidableEq

namespace Context

def empty : Context := ⟨.empty, .empty, none, none, none⟩

def offerProto (x : Context) (scheme : Scheme) (p : Priority) : Context :=
  match x.proto with
  | none => { x with proto := some (scheme, p) }
  | some (_, current) => if current.below p then { x with proto := some (scheme, p) } else x

def add (x : Context) : Evidence → Context
  | .authority a p => { x with authority := x.authority.offer a p }
  | .authorityPort port p => { x with authority := x.authority.offerPort port p }
  | .remote a p => { x with remote := x.remote.offer a p }
  | .remotePort port p => { x with remote := x.remote.offerPort port p }
  | .proto scheme p => x.offerProto scheme p
  | .cipherSuite value => { x with cipherSuite := some value }
  | .sslSessionId value => { x with sslSessionId := some value }

def addAll (x : Context) (evidence : List Evidence) : Context := evidence.foldl add x

def hasTls (x : Context) : Bool := x.cipherSuite.isSome || x.sslSessionId.isSome

end Context

end Gateway.Forwarding
