import Gateway.Forwarding.Evidence
import Gateway.Handler

set_option autoImplicit false

namespace Gateway.Forwarding

structure Resolver where
  config : Config
  roles : Roles
  forcedHost : Option Authority
  secureScheme : Scheme

namespace Resolver

def readForced (c : Config) : Except ConfigError (Option Authority) :=
  match c.forced? with
  | none => .ok none
  | some value =>
    match Authority.read value with
    | .ok a => .ok (some a)
    | .error e => .error (.invalidForcedHost value e)

def readSecureScheme (c : Config) : Except ConfigError Scheme :=
  match Scheme.read c.secureScheme with
  | .ok scheme => .ok scheme
  | .error _ => .error (.invalidScheme c.secureScheme)

def ofConfig (c : Config) : Except ConfigError Resolver := do
  let roles ← Roles.ofConfig c
  let forcedHost ← readForced c
  let secureScheme ← readSecureScheme c
  .ok ⟨c, roles, forcedHost, secureScheme⟩

def update (s : Resolver) (c : Config) : Resolver × Except ConfigError Unit :=
  match ofConfig c with
  | .ok s => (s, .ok ())
  | .error e => (s, .error e)

def start (s : Resolver) (r : Request) : Context :=
  match s.forcedHost with
  | some a => { Context.empty with authority := Candidate.empty.offer a .forced }
  | none =>
    match r.authority with
    | some a => { Context.empty with authority := Candidate.empty.offer a .request }
    | none => .empty

def readLine (s : Resolver) (line : Header.Line) : Except ParseError (List Evidence) :=
  match s.roles.get? line.1 with
  | none => .ok []
  | some role => Evidence.ofLine s.config role line.2

def gather (s : Resolver) (x : Context) : List Header.Line → Context × Except ParseError Unit
  | [] => (x, .ok ())
  | line :: rest =>
    match s.readLine line with
    | .ok evidence => gather s (x.addAll evidence) rest
    | .error e => (x, .error (.badProxyHeader line.1.text e.message))

def applyTls (s : Resolver) (x : Context) (r : Request) : Request :=
  let message := { r.message with
    cipherSuite := x.cipherSuite <|> r.message.cipherSuite
    sslSessionId := x.sslSessionId <|> r.message.sslSessionId }
  let r := { r with message }
  if x.hasTls ∧ s.config.sslIsSecure then { r with secure := true, scheme := s.secureScheme } else r

def applyProto (s : Resolver) (x : Context) (r : Request) : Request :=
  match x.proto with
  | none => r
  | some (scheme, _) =>
    let r := if scheme.same s.secureScheme then { r with secure := true } else r
    if x.hasTls ∧ s.config.sslIsSecure then r else { r with scheme }

def applyAuthority (x : Context) (r : Request) : Except ParseError Request :=
  match x.authority.authority? with
  | some a => r.setAuthority a
  | none => .ok r

def applyRemote (x : Context) (r : Request) : Request :=
  match x.remote.host with
  | none => r
  | some host =>
    let port := (x.remote.port <|> r.remote.map (·.port)).getD 0
    { r with remote := some ⟨host, port⟩ }

-- Resolves a request; on a fault the request comes back with the TLS evidence only.
def resolve (s : Resolver) (r : Request) : Request × Except ParseError Unit :=
  let (x, gathered) := s.gather (s.start r) r.headers.lines
  let r := s.applyTls x r
  match gathered with
  | .error e => (r, .error e)
  | .ok () =>
    let r := s.applyProto x r
    match applyAuthority x r with
    | .error e => (r, .error e)
    | .ok r => (applyRemote x r, .ok ())

def wrap (s : Resolver) {α : Type} (inner : Handler α) : Handler α where
  handle a request sink :=
    match s.resolve request with
    | (request, .ok ()) => inner.handle a request sink
    | (request, .error e) => ⟨a, request, sink, .error (.request e)⟩

def decorator (s : Resolver) {α : Type} : Decorator (Handler α) (Handler α) := ⟨s.wrap⟩

end Resolver

end Gateway.Forwarding
