import Gateway.Gzip.Response

set_option autoImplicit false

namespace Gateway.Gzip

structure Calls (σ κ : Type) where
  response : Response σ κ
  phases : List Phase

inductive Move where
  | begin (call : Call)
  | advance (i : Nat)

namespace Calls

variable {σ κ : Type}

def new (response : Response σ κ) : Calls σ κ := ⟨response, []⟩

variable [Sink σ] [Deflate.Compressor κ]

def begin (c : Calls σ κ) (call : Call) : Calls σ κ :=
  let (response, phase) := c.response.start c.phases.length call
  ⟨response, c.phases ++ [phase]⟩

def advance (c : Calls σ κ) (i : Nat) : Calls σ κ :=
  match c.phases[i]? with
  | none => c
  | some phase =>
    let (response, phase) := c.response.resume i phase
    ⟨response, c.phases.set i phase⟩

def move (c : Calls σ κ) : Move → Calls σ κ
  | .begin call => c.begin call
  | .advance i => c.advance i

def play (c : Calls σ κ) (moves : List Move) : Calls σ κ := moves.foldl move c

-- Lets a call go on until it is done or waits for the lock. At a gate the next write to the sink
-- waits too, and opens the gate.
def goOn (i : Nat) (gate : Bool) (c : Calls σ κ) : Option (Calls σ κ × Bool) :=
  match c.phases[i]? with
  | none => some (c, gate)
  | some (.done _) => some (c, gate)
  | some (.writing _ _ _) => if gate then some (c, false) else (c.advance i |>.goOn i gate)
  | some phase => if c.response.isBlocked i phase then some (c, gate) else (c.advance i |>.goOn i gate)
partial_fixpoint

def enter (c : Calls σ κ) (gate : Bool) (call : Call) : Option (Calls σ κ × Bool) :=
  goOn c.phases.length gate (c.begin call)

def goRound : Nat → Calls σ κ → Option (Calls σ κ)
  | 0, c => some c
  | n + 1, c => do
    goRound n (← (List.range c.phases.length).foldlM (fun c i => (goOn i false c).map (·.1)) c)

-- Lets all calls go on until none can: each round ends one of those that wait at least.
def finish (c : Calls σ κ) : Option (Calls σ κ) := goRound (c.phases.length + 1) c

def result? (c : Calls σ κ) (i : Nat) : Option Sent :=
  match c.phases[i]? with
  | some (.done result) => some result
  | _ => none

end Calls

inductive Ask where
  | call (c : Call)
  | state

inductive Answer where
  | sent (result : Option Sent)
  | state (s : State)

namespace Calls

variable {σ κ : Type} [Sink σ] [Deflate.Compressor κ]

def enterAll (c : Calls σ κ) (gate : Bool) :
    List Ask → Option (Calls σ κ × List (State ⊕ Nat))
  | [] => some (c, [])
  | .state :: rest => do
    let (d, due) ← c.enterAll gate rest
    return (d, .inl c.response.state :: due)
  | .call call :: rest => do
    let (d, gate) ← c.enter gate call
    let (d, due) ← d.enterAll gate rest
    return (d, .inr c.phases.length :: due)

-- Joins what is asked: it is met in order, the first write to the sink waits until all has been,
-- and then the calls that wait go on.
def join (r : Response σ κ) (asks : List Ask) : Option (Response σ κ × List Answer) := do
  let (c, due) ← (new r).enterAll true asks
  let c ← c.finish
  return (c.response, due.map fun
    | .inl s => .state s
    | .inr i => .sent (c.result? i))

end Calls

end Gateway.Gzip
