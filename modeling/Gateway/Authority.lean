import Gateway.Address.Ip
import Gateway.Error
import Gateway.Header.Value

set_option autoImplicit false

namespace Gateway

-- An IPv6 host is always kept in its brackets, also where it came without.
structure Authority where
  host : Text
  port : Option UInt16
deriving DecidableEq

namespace Authority

def isHostChar (c : Char) : Bool :=
  decide (0x21 ≤ c.toNat) && decide (c.toNat ≤ 0x7e) && !"/?#@[]\\\"".toList.contains c

def isHostName (s : Text) : Bool := !(Text.trim s).isEmpty && s.all isHostChar

def fault (value : Text) (reason : String) : ParseError := .invalidHostPort value reason.toList

def readPort (value : Text) : Except ParseError UInt16 :=
  if (Text.trim value).isEmpty then .error (fault value "missing port")
  else match Numeral.read? 65535 (Text.trim value) with
    | some (n + 1) => .ok (UInt16.ofNat (n + 1))
    | _ => .error (fault value "bad port")

def readBracketTail (value : Text) : Text → Except ParseError (Option UInt16)
  | [] => .ok none
  | ':' :: port => (readPort port).map some
  | _ => .error (fault value "bad ipv6 port")

def readBracketed (value rest : Text) : Except ParseError Authority :=
  match Text.cutLast ']' rest with
  | none => .error (fault value "bad ipv6 host")
  | some (address, tail) =>
    if (Address.Ipv6.read? address).isSome then
      (readBracketTail value tail).map fun port => ⟨['['] ++ address ++ [']'], port⟩
    else .error (fault value "bad ipv6 host")

def readPlain (value : Text) : Except ParseError Authority :=
  match Text.cut ':' value with
  | none =>
    if isHostName value then .ok ⟨value, none⟩ else .error (fault value "bad authority")
  | some (host, port) =>
    if port.contains ':' then
      if (Address.Ipv6.read? value).isSome then .ok ⟨['['] ++ value ++ [']'], none⟩
      else .error (fault value "bad ipv6 host")
    else if isHostName host then (readPort port).map fun p => ⟨host, some p⟩
    else .error (fault value "bad authority")

def read (value : Text) : Except ParseError Authority :=
  if (Text.trim value).isEmpty then .error (fault value "empty authority")
  else match value with
    | '[' :: rest => readBracketed value rest
    | _ => readPlain value

def portOr (a : Authority) (default : UInt16) : UInt16 := a.port.getD default

def isIpv6 (a : Authority) : Bool := a.host.head? = some '['

def render (a : Authority) : Text :=
  match a.port with
  | some port => a.host ++ [':'] ++ Text.decimal port.toNat
  | none => a.host

end Authority

end Gateway
