import Gateway.Deflate.Engine

set_option autoImplicit false

namespace Gateway.Deflate

structure Entry (κ : Type) where
  engine : Option (Engine κ)
deriving DecidableEq

structure Pool (κ : Type) where
  capacity : Nat
  level : Nat
  -- The latest that came back stands first.
  idle : List (Engine κ)
  checkedOut : Nat
deriving DecidableEq

namespace Pool

variable {κ : Type}

def new (capacity level : Nat) : Pool κ := { capacity, level, idle := [], checkedOut := 0 }

def acquire? (p : Pool κ) : Option (Entry κ × Pool κ) :=
  if p.checkedOut < p.capacity then
    some (⟨p.idle.head?⟩, { p with idle := p.idle.tail, checkedOut := p.checkedOut + 1 })
  else none

variable [Compressor κ]

def engine (p : Pool κ) (e : Entry κ) : Engine κ := e.engine.getD (.new p.level)

def release (p : Pool κ) (e : Entry κ) : Pool κ :=
  let idle := match e.engine with
    | some engine => if p.idle.length < p.capacity then engine.reset :: p.idle else p.idle
    | none => p.idle
  { p with idle, checkedOut := p.checkedOut - 1 }

end Pool

end Gateway.Deflate
