import Gateway.Text

set_option autoImplicit false

namespace Gateway.Forwarding

-- The sources of evidence, from the one that never wins to the one that always does.
inductive Priority where
  | unset
  | proxiedHttps
  | forwardedProto
  | request
  | forwardedServer
  | forwardedPort
  | forwardedFor
  | forwardedHost
  | forwarded
  | forced
deriving DecidableEq

namespace Priority

def rank : Priority → Int
  | unset => -1
  | proxiedHttps => 1
  | forwardedProto => 2
  | request => 3
  | forwardedServer => 4
  | forwardedPort => 5
  | forwardedFor => 6
  | forwardedHost => 7
  | forwarded => 8
  | forced => 999

def all : List Priority :=
  [unset, proxiedHttps, forwardedProto, request, forwardedServer, forwardedPort, forwardedFor,
    forwardedHost, forwarded, forced]

def name : Priority → Text
  | unset => "UNSET".toList
  | proxiedHttps => "X_PROXIED_HTTPS".toList
  | forwardedProto => "X_FORWARDED_PROTO".toList
  | request => "REQUEST".toList
  | forwardedServer => "X_FORWARDED_SERVER".toList
  | forwardedPort => "X_FORWARDED_PORT".toList
  | forwardedFor => "X_FORWARDED_FOR".toList
  | forwardedHost => "X_FORWARDED_HOST".toList
  | forwarded => "FORWARDED".toList
  | forced => "FORCED".toList

def below (p q : Priority) : Bool := decide (p.rank < q.rank)

end Priority

end Gateway.Forwarding
