import Gateway.Sink.Channel

set_option autoImplicit false

namespace Gateway

inductive Ending where
  | eof
  | dropped
  | failed (error : SendError)
deriving DecidableEq

structure Reading where
  opening : Option (Except SendError Head)
  hint : SizeHint
  frames : List Bytes
  ending : Option Ending
  endStream : Bool
  endHint : SizeHint

namespace Reading

def new : Reading :=
  { opening := none, hint := .unknown, frames := [], ending := none, endStream := false,
    endHint := .unknown }

end Reading

structure Exchange where
  channel : Channel
  limit : Option Nat
  reading : Reading

namespace Exchange

def new (head : Head) (limit : Option Nat) : Exchange :=
  { channel := .new head, limit, reading := .new }

def deserted (head : Head) : Exchange :=
  { channel := (Channel.new head).drop, limit := none, reading := .new }

def conclude (x : Exchange) (ending : Ending) : Exchange :=
  { x with reading := { x.reading with
      ending := some ending
      endStream := x.channel.isEndStream
      endHint := x.channel.hint } }

def readStep (x : Exchange) : Option Exchange :=
  match x.channel.reader with
  | .gone => none
  | .waiting =>
    match x.channel.accept with
    | (_, .pending) => none
    | (channel, .response head) =>
      some { x with channel, reading := { x.reading with
        opening := some (.ok head)
        hint := channel.hint } }
    | (channel, .refused e) =>
      some { x with channel, reading := { x.reading with opening := some (.error e) } }
  | .reading _ _ =>
    if x.reading.ending.isSome then none
    else if x.limit = some x.reading.frames.length then
      let x := x.conclude .dropped
      some { x with channel := x.channel.drop }
    else
      match x.channel.poll with
      | (_, .pending) => none
      | (channel, .frame data) =>
        some { x with channel, reading := { x.reading with frames := x.reading.frames ++ [data] } }
      | (channel, .ended) => some ({ x with channel }.conclude .eof)
      | (channel, .failed e) => some ({ x with channel }.conclude (.failed e))

def read : Nat → Exchange → Exchange
  | 0, x => x
  | fuel + 1, x =>
    match x.readStep with
    | some x => read fuel x
    | none => x

-- The steps that a reader can take before it has to wait: for the head, for the item in flight, and
-- for the end.
def readSteps : Nat := 4

def settle : Nat → Exchange → Channel.Phase → Exchange × Sent
  | _, x, .done result => (x, result)
  | 0, x, _ => (x, .error .writePending)
  | fuel + 1, x, phase =>
    let x := x.read readSteps
    let (channel, phase) := x.channel.resume phase
    settle fuel { x with channel } phase

def waits : Nat := 2

def write (x : Exchange) (last : Bool) (content : Option Bytes) : Exchange × Sent :=
  let (channel, phase) := x.channel.start last content
  settle waits { x with channel } phase

def close (x : Exchange) : Exchange :=
  { x with channel := x.channel.close }.read readSteps

instance : Sink Exchange where
  head x := x.channel.head
  setHead x head := { x with channel := { x.channel with head } }
  isCommitted x := x.channel.announced
  write := write

end Exchange

end Gateway
