import Gateway.Deflate.Block
import Gateway.Deflate.Engine

set_option autoImplicit false

namespace Gateway.Deflate

-- Input is held back until a flush, the end of the stream or a full hold makes it into blocks.
-- Output that does not fit stays pending and goes out before anything new.
structure Encoder where
  level : Nat
  held : Bytes
  -- The latest octets that went into blocks.
  window : Bytes
  pending : Bytes
  closed : Bool
deriving DecidableEq

namespace Encoder

def new (level : Nat) : Encoder :=
  { level, held := [], window := [], pending := [], closed := false }

def holdSize : Nat := 32768

def takeIn (e : Encoder) (input : Bytes) : Encoder := { e with held := e.held ++ input }

def pack (e : Encoder) (closing : Bool) : Encoder :=
  { e with
    held := []
    window := slide e.window e.held
    pending := e.pending ++ writeBlocks e.level closing e.window (blocksOf e.held) }

def mark (e : Encoder) : Encoder := { e with pending := e.pending ++ [0x00] ++ marker }

-- A flush makes what is held into blocks and leaves the output with an empty stored block at its
-- end, which blocks of tokens already have.
def flush (e : Encoder) : Encoder :=
  if e.held.isEmpty then e.mark
  else if e.level = 0 then (e.pack false).mark
  else e.pack false

def work (e : Encoder) (input : Bytes) (flush : Flush) : Encoder :=
  let e := e.takeIn input
  if e.closed then e
  else match flush with
    | .finish => { e.pack true with closed := true }
    | .sync => e.flush
    | .none => if holdSize ≤ e.held.length then e.pack false else e

def hasWork (e : Encoder) (input : Bytes) (flush : Flush) : Bool :=
  e.pending.isEmpty || !input.isEmpty || flush = .finish

def deliver (e : Encoder) (taken free : Nat) : Turn Encoder :=
  let pending := e.pending.drop free
  { next := { e with pending }
    taken
    output := e.pending.take free
    ended := e.closed && pending.isEmpty
    fault := none }

-- While the pending output fills all of the room nothing new is taken in.
def compress (e : Encoder) (input : Bytes) (free : Nat) (flush : Flush) : Turn Encoder :=
  if (e.pending.drop (free - 1)).isEmpty && e.hasWork input flush then
    (e.work input flush).deliver input.length free
  else e.deliver 0 free

instance : Compressor Encoder where
  fresh := new
  reset e := new e.level
  compress := compress

end Encoder

end Gateway.Deflate
