import Gateway.Address.Ip

set_option autoImplicit false

namespace Gateway.Address

structure Remote where
  host : Text
  port : UInt16
deriving DecidableEq

namespace Remote

def render (r : Remote) : Text := r.host ++ [':'] ++ Text.decimal r.port.toNat

def socketPort? (s : Text) : Option UInt16 :=
  if s.isEmpty then none
  else ((Numeral.digits? 0 s).filter (· ≤ 65535)).map UInt16.ofNat

-- Reads a socket address, `a.b.c.d:port` or `[v6]:port`; the host of the latter stays in brackets,
-- without a zone.
def ofSocket? (s : Text) : Option Remote :=
  match s with
  | '[' :: rest =>
    match Text.cutLast ']' rest with
    | some (inside, ':' :: port) =>
      let address := match Text.cut '%' inside with
        | some (before, zone) =>
          if zone.isEmpty then none
          else ((Numeral.digits? 0 zone).filter (· < UInt32.size)).map fun _ => before
        | none => some inside
      match address.bind Ipv6.read?, socketPort? port with
      | some a, some p => some ⟨['['] ++ a.render ++ [']'], p⟩
      | _, _ => none
    | _ => none
  | _ =>
    match Text.cutLast ':' s with
    | some (before, port) =>
      match Ipv4.read? before, socketPort? port with
      | some a, some p => some ⟨a.render, p⟩
      | _, _ => none
    | none => none

end Remote

end Gateway.Address
