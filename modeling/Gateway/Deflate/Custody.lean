import Gateway.Deflate.Pool

set_option autoImplicit false

namespace Gateway.Deflate

structure Custody (κ : Type) where
  pool : Pool κ
  -- By number; none where the request was refused or the entry went back.
  entries : List (Option (Entry κ))
deriving DecidableEq

namespace Custody

variable {κ : Type}

def new (pool : Pool κ) : Custody κ := ⟨pool, []⟩

def live (c : Custody κ) : List (Entry κ) := c.entries.filterMap id

def entry? (c : Custody κ) (i : Nat) : Option (Entry κ) := (c.entries[i]?).join

def keep (c : Custody κ) : Option (Entry κ × Pool κ) → Custody κ
  | some (entry, pool) => ⟨pool, c.entries ++ [some entry]⟩
  | none => { c with entries := c.entries ++ [none] }

def acquire (c : Custody κ) : Custody κ := c.keep c.pool.acquire?

def acquireMany : Nat → Custody κ → Custody κ
  | 0, c => c
  | n + 1, c => acquireMany n c.acquire

variable [Compressor κ]

def release (c : Custody κ) (i : Nat) : Custody κ :=
  match c.entry? i with
  | some entry => ⟨c.pool.release entry, c.entries.set i none⟩
  | none => c

def use (c : Custody κ) (i : Nat) (work : Engine κ → Engine κ) : Custody κ :=
  match c.entry? i with
  | some entry => { c with entries := c.entries.set i (some ⟨some (work (c.pool.engine entry))⟩) }
  | none => c

def engine? (c : Custody κ) (i : Nat) : Option (Engine κ) := (c.entry? i).map c.pool.engine

end Custody

end Gateway.Deflate
