import Gateway.Forwarding.Role

set_option autoImplicit false

namespace Gateway.Forwarding

inductive Setting where
  | header (role : Role) (name : Option Text)
  | forwardedOnly (on : Bool)
  | proxyAsAuthority (on : Bool)
  | portAsAuthority (on : Bool)
  | sslIsSecure (on : Bool)
  | forcedHost (value : Option Text)
  | secureScheme (value : Text)
deriving DecidableEq

def Role.label : Role → String
  | forwarded => "forwarded-header"
  | host => "forwarded-host-header"
  | server => "forwarded-server-header"
  | for_ => "forwarded-for-header"
  | port => "forwarded-port-header"
  | proto => "forwarded-proto-header"
  | https => "forwarded-https-header"
  | cipherSuite => "forwarded-cipher-suite-header"
  | sslSessionId => "forwarded-ssl-session-id-header"

def Role.all : List Role :=
  [forwarded, host, server, for_, port, proto, https, cipherSuite, sslSessionId]

def Setting.ofField? (name : Text) (value : Json) : Option Setting :=
  let flag (setting : Bool → Setting) : Option Setting := value.asBool?.map setting
  match String.ofList name with
  | "forwarded-only" => flag .forwardedOnly
  | "proxy-as-authority" => flag .proxyAsAuthority
  | "forwarded-port-as-authority" => flag .portAsAuthority
  | "ssl-is-secure" => flag .sslIsSecure
  | "forced-host" => value.asOptional?.map forcedHost
  | "secure-scheme" => value.asText?.map secureScheme
  | label =>
    match Role.all.find? (·.label = label) with
    | some role => value.asOptional?.map (header role)
    | none => none

namespace Config

def setHeader (c : Config) (name : Option Text) : Role → Config
  | .forwarded => { c with forwardedHeader := name }
  | .host => { c with hostHeader := name }
  | .server => { c with serverHeader := name }
  | .for_ => { c with forHeader := name }
  | .port => { c with portHeader := name }
  | .proto => { c with protoHeader := name }
  | .https => { c with httpsHeader := name }
  | .cipherSuite => { c with cipherSuiteHeader := name }
  | .sslSessionId => { c with sslSessionIdHeader := name }

def apply (c : Config) : Setting → Config
  | .header role name => c.setHeader name role
  | .forwardedOnly on => c.setForwardedOnly on
  | .proxyAsAuthority on => { c with proxyAsAuthority := on }
  | .portAsAuthority on => { c with portAsAuthority := on }
  | .sslIsSecure on => { c with sslIsSecure := on }
  | .forcedHost value => { c with forcedHost := value }
  | .secureScheme value => { c with secureScheme := value }

def applyAll (c : Config) (settings : List Setting) : Config := settings.foldl apply c

def effective (c : Config) : List (Text × Json) :=
  fields.zip
    [.ofOptional c.forwarded?, .ofOptional c.host?, .ofOptional c.server?, .ofOptional c.for?,
      .ofOptional c.port?, .ofOptional c.proto?, .ofOptional c.https?, .ofOptional c.cipherSuite?,
      .ofOptional c.sslSessionId?, .bool c.forwardedOnly, .bool c.proxyAsAuthority,
      .bool c.portAsAuthority, .bool c.sslIsSecure, .ofOptional c.forced?,
      .string (some c.secureScheme)]

end Config

end Gateway.Forwarding
