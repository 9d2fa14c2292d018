import Gateway.Authority
import Gateway.Forwarding.Priority

set_option autoImplicit false

namespace Gateway.Forwarding

-- Each part changes only for a source of strictly higher priority, so of equal sources the first
-- one stays.
structure Candidate where
  host : Option Text
  hostPriority : Priority
  port : Option UInt16
  portPriority : Priority
deriving DecidableEq

namespace Candidate

def empty : Candidate := ⟨none, .unset, none, .unset⟩

def offerHost (c : Candidate) (host : Text) (p : Priority) : Candidate :=
  if c.hostPriority.below p then { c with host := some host, hostPriority := p } else c

def offerPort (c : Candidate) (port : UInt16) (p : Priority) : Candidate :=
  if 0 < port ∧ c.portPriority.below p then { c with port := some port, portPriority := p } else c

-- Offers a host together with a port, which counts only if the host is taken. The port that goes
-- with a `Forwarded` host is authoritative: it takes the place of the present one even if absent.
def offer (c : Candidate) (a : Authority) (p : Priority) : Candidate :=
  if c.host.isSome ∧ ¬ c.hostPriority.below p then c
  else
    let c := { c with host := some a.host, hostPriority := p }
    if p = .forwarded then { c with port := a.port, portPriority := p }
    else match a.port with
      | some port => c.offerPort port p
      | none => c

def authority? (c : Candidate) : Option Authority := c.host.map fun host => ⟨host, c.port⟩

end Candidate

end Gateway.Forwarding
