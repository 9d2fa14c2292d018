import Gateway.Text

set_option autoImplicit false

namespace Gateway.Deflate

inductive Flush where
  | none
  | sync
  | finish
deriving DecidableEq

structure Turn (κ : Type) where
  next : κ
  taken : Nat
  output : Bytes
  ended : Bool
  fault : Option Text

class Compressor (κ : Type) where
  fresh : Nat → κ
  reset : κ → κ
  compress : κ → Bytes → Nat → Flush → Turn κ

structure Engine (κ : Type) where
  compressor : κ
  input : Bytes
  finishing : Bool
  finished : Bool
  totalIn : Nat
  totalOut : Nat
deriving DecidableEq

namespace Engine

variable {κ : Type}

def needsInput (e : Engine κ) : Bool := e.input.isEmpty

def setInput (e : Engine κ) (input : Bytes) : Engine κ := { e with input }

def finish (e : Engine κ) : Engine κ := { e with finishing := true }

def flushMode (e : Engine κ) (sync : Bool) : Flush :=
  if e.finishing then .finish else if sync then .sync else .none

variable [Compressor κ]

def new (level : Nat) : Engine κ :=
  { compressor := Compressor.fresh level, input := [], finishing := false, finished := false,
    totalIn := 0, totalOut := 0 }

def reset (e : Engine κ) : Engine κ :=
  { compressor := Compressor.reset e.compressor, input := [], finishing := false,
    finished := false, totalIn := 0, totalOut := 0 }

def after (e : Engine κ) (t : Turn κ) : Engine κ :=
  { e with
    compressor := t.next
    input := e.input.drop t.taken
    totalIn := e.totalIn + t.taken
    totalOut := e.totalOut + t.output.length }

def deflate (e : Engine κ) (free : Nat) (sync : Bool) : Engine κ × Except Text Bytes :=
  if free = 0 ∨ e.finished then (e, .ok [])
  else
    let t := Compressor.compress e.compressor e.input free (e.flushMode sync)
    match t.fault with
    | some reason => (e.after t, .error reason)
    | none => ({ e.after t with finished := t.ended }, .ok t.output)

def drain (free : Nat) (e : Engine κ) (done : Bytes) : Option (Engine κ × Bytes) :=
  if e.finished then some (e, done)
  else
    match e.deflate free false with
    | (e, .ok []) => some (e, done)
    | (e, .ok out) => e |>.drain free (done ++ out)
    | (e, .error _) => some (e, done)
partial_fixpoint

end Engine

end Gateway.Deflate
