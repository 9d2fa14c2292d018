import Gateway.Address.Remote
import Gateway.Authority
import Gateway.Header.Map
import Gateway.Uri

set_option autoImplicit false

namespace Gateway

inductive Version where
  | http09
  | http10
  | http11
  | http2
  | http3
deriving DecidableEq

def Version.name : Version → Text
  | http09 => "HTTP/0.9".toList
  | http10 => "HTTP/1.0".toList
  | http11 => "HTTP/1.1".toList
  | http2 => "HTTP/2.0".toList
  | http3 => "HTTP/3.0".toList

def Version.all : List Version := [http09, http10, http11, http2, http3]

structure Message where
  method : Text
  uri : Uri
  version : Version
  headers : Header.Map
  cipherSuite : Option Text := none
  sslSessionId : Option Text := none
deriving DecidableEq

structure Request where
  message : Message
  scheme : Scheme
  secure : Bool
  resolved : Option Authority
  remote : Option Address.Remote
deriving DecidableEq

namespace Request

def ofMessage (m : Message) : Request :=
  let scheme := m.uri.scheme.getD .http
  { message := m, scheme, secure := scheme.same .https, resolved := none, remote := none }

def copyMessage (r : Request) : Message :=
  { r.message with cipherSuite := none, sslSessionId := none }

def headers (r : Request) : Header.Map := r.message.headers

def withHeaders (r : Request) (headers : Header.Map) : Request :=
  { r with message := { r.message with headers } }

-- The authority that a message names: that of an absolute target, or else of the `Host` header.
def namedAuthority (m : Message) : Option Authority :=
  match m.uri.authority with
  | some text => (Authority.read text).toOption
  | none =>
    ((m.headers.get? .host).bind Header.Value.text?).bind fun text =>
      (Authority.read text).toOption

def authority (r : Request) : Option Authority :=
  match r.resolved with
  | some a => some a
  | none => namedAuthority r.message

def setAuthority (r : Request) (a : Authority) : Except ParseError Request :=
  match Header.Value.ofText? a.render with
  | some value => .ok { r.withHeaders (r.headers.insert .host value) with resolved := some a }
  | none => .error (.invalidHeader "failed to parse header value".toList)

end Request

end Gateway
