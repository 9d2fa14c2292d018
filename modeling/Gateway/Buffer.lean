import Gateway.Text

set_option autoImplicit false

namespace Gateway

structure Buffer where
  capacity : Nat
  data : Bytes
deriving DecidableEq

namespace Buffer

def new (capacity : Nat) : Buffer := ⟨capacity, []⟩

def clear (b : Buffer) : Buffer := { b with data := [] }

def free (b : Buffer) : Nat := b.capacity - b.data.length

-- Appends octets. A buffer without room for them grows, to twice its capacity at least.
def put (b : Buffer) (bytes : Bytes) : Buffer :=
  let size := b.data.length + bytes.length
  { capacity := if size ≤ b.capacity then b.capacity else max (max (2 * b.capacity) size) 8
    data := b.data ++ bytes }

end Buffer

structure BufferPool where
  buffers : List Buffer
  maxIdle : Nat
deriving DecidableEq

namespace BufferPool

def new (maxIdle : Nat) : BufferPool := ⟨[], maxIdle⟩

def standard : BufferPool := new 64

def lastFit? (size : Nat) (buffers : List Buffer) : Option Nat :=
  ((buffers.zipIdx.filter fun (b, _) => size ≤ b.capacity).getLast?).map (·.2)

def removeAt (i : Nat) (buffers : List Buffer) : List Buffer :=
  match buffers.getLast? with
  | none => []
  | some last => (buffers.set i last).dropLast

def acquire (p : BufferPool) (size : Nat) : Buffer × BufferPool :=
  match lastFit? size p.buffers with
  | some i =>
    (((p.buffers[i]?).getD (.new size)).clear, { p with buffers := removeAt i p.buffers })
  | none => (.new size, p)

def release (p : BufferPool) (b : Buffer) : BufferPool :=
  if p.buffers.length < p.maxIdle then { p with buffers := p.buffers ++ [b.clear] } else p

def idle (p : BufferPool) : Nat := p.buffers.length

end BufferPool

end Gateway
