import Gateway.Sink

set_option autoImplicit false

namespace Gateway

structure Recorder where
  head : Head
  -- The head as it was at the first accepted write.
  committed : Option Head
  writes : List (Bool × Bytes)
  ended : Bool
  failing : Bool
deriving DecidableEq

namespace Recorder

def new (head : Head) : Recorder :=
  { head, committed := none, writes := [], ended := false, failing := false }

-- Records a write. After the last one only empty writes are accepted, and nothing comes of them.
def write (r : Recorder) (last : Bool) (content : Option Bytes) : Recorder × Sent :=
  let data := content.getD []
  if r.failing then (r, .error (.aborted "peer gone".toList))
  else if r.ended then
    (r, if data.isEmpty then .ok () else .error (.illegalState "write after last".toList))
  else
    ({ r with
        committed := r.committed <|> some r.head
        writes := r.writes ++ [(last, data)]
        ended := last }, .ok ())

instance : Sink Recorder where
  head := head
  setHead r head := { r with head }
  isCommitted r := r.committed.isSome
  write := write

def body (r : Recorder) : Bytes := (r.writes.map (·.2)).flatten

end Recorder

end Gateway
