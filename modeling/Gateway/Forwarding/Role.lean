import Gateway.Forwarding.Config
import Gateway.Header.Map

set_option autoImplicit false

namespace Gateway.Forwarding

inductive Role where
  | forwarded
  | host
  | server
  | for_
  | port
  | proto
  | https
  | cipherSuite
  | sslSessionId
deriving DecidableEq

def Role.name : Role → Text
  | forwarded => "Forwarded".toList
  | host => "Host".toList
  | server => "Server".toList
  | for_ => "For".toList
  | port => "Port".toList
  | proto => "Proto".toList
  | https => "Https".toList
  | cipherSuite => "CipherSuite".toList
  | sslSessionId => "SslSessionId".toList

structure Roles where
  entries : List (Header.Name × Role)
deriving DecidableEq

namespace Roles

def assign (name : Header.Name) (role : Role) :
    List (Header.Name × Role) → List (Header.Name × Role)
  | [] => [(name, role)]
  | (key, old) :: rest =>
    if key = name then (key, role) :: rest else (key, old) :: assign name role rest

-- The configured names; where two roles have one name the later role has it.
def configured (c : Config) : List (Option Text × Role) :=
  [(c.forwarded?, .forwarded), (c.host?, .host), (c.for?, .for_), (c.port?, .port),
    (c.proto?, .proto), (c.https?, .https), (c.server?, .server), (c.cipherSuite?, .cipherSuite),
    (c.sslSessionId?, .sslSessionId)]

def collect (entries : List (Header.Name × Role)) :
    List (Option Text × Role) → Except ConfigError (List (Header.Name × Role))
  | [] => .ok entries
  | (none, _) :: rest => collect entries rest
  | (some text, role) :: rest =>
    match Header.Name.read? text with
    | some name => collect (assign name role entries) rest
    | none => .error (.invalidHeaderName text)

def ofConfig (c : Config) : Except ConfigError Roles :=
  (collect [] (configured c)).map Roles.mk

def get? (t : Roles) (name : Header.Name) : Option Role :=
  (t.entries.find? (·.1 = name)).map (·.2)

def size (t : Roles) : Nat := t.entries.length

end Roles

end Gateway.Forwarding
