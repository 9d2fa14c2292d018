import Gateway.Error
import Gateway.Json.Record

set_option autoImplicit false

namespace Gateway.Forwarding

structure Config where
  forwardedHeader : Option Text := some "Forwarded".toList
  hostHeader : Option Text := some "X-Forwarded-Host".toList
  serverHeader : Option Text := some "X-Forwarded-Server".toList
  forHeader : Option Text := some "X-Forwarded-For".toList
  portHeader : Option Text := some "X-Forwarded-Port".toList
  protoHeader : Option Text := some "X-Forwarded-Proto".toList
  httpsHeader : Option Text := some "X-Proxied-Https".toList
  cipherSuiteHeader : Option Text := some "Proxy-auth-cert".toList
  sslSessionIdHeader : Option Text := some "Proxy-ssl-id".toList
  forwardedOnly : Bool := false
  proxyAsAuthority : Bool := false
  portAsAuthority : Bool := true
  sslIsSecure : Bool := true
  forcedHost : Option Text := none
  secureScheme : Text := "https".toList
deriving DecidableEq

def enabled (setting : Option Text) : Option Text :=
  (setting.map Text.trim).filter (!·.isEmpty)

namespace Config

def besides (c : Config) (setting : Option Text) : Option Text :=
  if c.forwardedOnly then none else enabled setting

def forwarded? (c : Config) : Option Text := enabled c.forwardedHeader
def host? (c : Config) : Option Text := c.besides c.hostHeader
def server? (c : Config) : Option Text := c.besides c.serverHeader
def for? (c : Config) : Option Text := c.besides c.forHeader
def port? (c : Config) : Option Text := c.besides c.portHeader
def proto? (c : Config) : Option Text := c.besides c.protoHeader
def https? (c : Config) : Option Text := c.besides c.httpsHeader
def cipherSuite? (c : Config) : Option Text := enabled c.cipherSuiteHeader
def sslSessionId? (c : Config) : Option Text := enabled c.sslSessionIdHeader
def forced? (c : Config) : Option Text := enabled c.forcedHost

-- Turns the mode that honours `Forwarded` alone on or off. On, the other names are given up; off,
-- they return to their defaults. Either way `Forwarded` is on afterwards.
def setForwardedOnly (c : Config) (only : Bool) : Config :=
  let defaults : Config := {}
  let name (default : Option Text) : Option Text := if only then none else default
  { c with
    forwardedOnly := only
    hostHeader := name defaults.hostHeader
    serverHeader := name defaults.serverHeader
    forHeader := name defaults.forHeader
    portHeader := name defaults.portHeader
    protoHeader := name defaults.protoHeader
    httpsHeader := name defaults.httpsHeader
    forwardedHeader := if c.forwarded?.isNone then defaults.forwardedHeader else c.forwardedHeader }

def fields : List Text :=
  ["forwarded-header", "forwarded-host-header", "forwarded-server-header", "forwarded-for-header",
    "forwarded-port-header", "forwarded-proto-header", "forwarded-https-header",
    "forwarded-cipher-suite-header", "forwarded-ssl-session-id-header", "forwarded-only",
    "proxy-as-authority", "forwarded-port-as-authority", "ssl-is-secure", "forced-host",
    "secure-scheme"].map String.toList

def ofGiven? (given : Json.Given) : Option Config := do
  let d : Config := {}
  let text (name : String) (default : Option Text) := Json.field? given name Json.asOptional? default
  let flag (name : String) (default : Bool) := Json.field? given name Json.asBool? default
  return {
    forwardedHeader := ← text "forwarded-header" d.forwardedHeader
    hostHeader := ← text "forwarded-host-header" d.hostHeader
    serverHeader := ← text "forwarded-server-header" d.serverHeader
    forHeader := ← text "forwarded-for-header" d.forHeader
    portHeader := ← text "forwarded-port-header" d.portHeader
    protoHeader := ← text "forwarded-proto-header" d.protoHeader
    httpsHeader := ← text "forwarded-https-header" d.httpsHeader
    cipherSuiteHeader := ← text "forwarded-cipher-suite-header" d.cipherSuiteHeader
    sslSessionIdHeader := ← text "forwarded-ssl-session-id-header" d.sslSessionIdHeader
    forwardedOnly := ← flag "forwarded-only" d.forwardedOnly
    proxyAsAuthority := ← flag "proxy-as-authority" d.proxyAsAuthority
    portAsAuthority := ← flag "forwarded-port-as-authority" d.portAsAuthority
    sslIsSecure := ← flag "ssl-is-secure" d.sslIsSecure
    forcedHost := ← text "forced-host" d.forcedHost
    secureScheme := ← Json.field? given "secure-scheme" Json.asText? d.secureScheme }

def read (s : Text) : Except ConfigError Config :=
  match ((Json.read? s).bind (Json.given? fields)).bind ofGiven? with
  | some c => .ok c
  | none => .error .malformed

end Config

end Gateway.Forwarding
