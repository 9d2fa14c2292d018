import Gateway.Deflate.Pool
import Gateway.Gzip.Config

set_option autoImplicit false

namespace Gateway.Gzip

structure Policy where
  excluded : List MediaPattern
  minSize : Nat
deriving DecidableEq

namespace Policy

variable {κ : Type}

def ofConfig (c : Config) : Except ConfigError (Policy × Deflate.Pool κ) := do
  c.validate
  let excluded ← MediaPattern.readAll c.excludedMedia
  .ok (⟨excluded, c.minSize⟩, .new c.poolCapacity c.level)

-- Whether a body of a type may be compressed. A type that cannot be read excludes nothing.
def allows (p : Policy) (contentType : Text) : Bool :=
  match Media.read? (Text.trim contentType) with
  | some m => !p.excluded.any (·.fits m)
  | none => true

def entry? (p : Policy) (engines : Deflate.Pool κ) (length : Option Nat) :
    Option (Deflate.Entry κ × Deflate.Pool κ) :=
  match length with
  | some n => if n < p.minSize then none else engines.acquire?
  | none => engines.acquire?

end Policy

end Gateway.Gzip
