import Gateway.Payload
import Gateway.Sink

set_option autoImplicit false

namespace Gateway

namespace Channel

inductive Slot where
  | empty
  | full (item : PayloadItem)
  | taken
  | lost
deriving DecidableEq

inductive Reader where
  | waiting
  | reading (size : PayloadSize) (ended : Bool)
  | gone
deriving DecidableEq

-- How far a write has come: it waits for its content to be pulled, or for the end of the response
-- to be, or it is done.
inductive Phase where
  | content (last : Bool)
  | ending
  | done (result : Sent)

inductive Opening where
  | pending
  | response (head : Head)
  | refused (error : SendError)

inductive Pull where
  | pending
  | frame (data : Bytes)
  | ended
  | failed (error : SendError)

end Channel

-- Behind the head at most one item is in flight: its write waits until the reader has pulled it or
-- has gone away.
structure Channel where
  head : Head
  announced : Bool
  -- A head that was handed over and that the reader has not taken yet.
  offered : Option Head
  slot : Channel.Slot
  ended : Bool
  closed : Bool
  reader : Channel.Reader
deriving DecidableEq

namespace Channel

def new (head : Head) : Channel :=
  { head, announced := false, offered := none, slot := .empty, ended := false, closed := false,
    reader := .waiting }

def receiverDropped : SendError := .aborted "response receiver dropped".toList
def bodyDropped : SendError := .aborted "response body dropped before acknowledging".toList
def droppedBeforeCommit : SendError := .aborted "response sink dropped before commit".toList
def droppedBeforeEnd : SendError := .aborted "response sink dropped before the last write".toList
def writeAfterLast : SendError := .illegalState "write after last".toList

def announce (c : Channel) : Channel × Sent :=
  if c.announced then (c, .ok ())
  else if c.reader = .gone then ({ c with announced := true }, .error receiverDropped)
  else ({ c with announced := true, offered := some c.head }, .ok ())

def send (c : Channel) (item : PayloadItem) (phase : Phase) : Channel × Phase :=
  if c.reader = .gone then (c, .done (.error receiverDropped))
  else ({ c with slot := .full item }, phase)

def sendEnd (c : Channel) (last : Bool) : Channel × Phase :=
  if last then { c with ended := true }.send .eof .ending else (c, .done (.ok ()))

def start (c : Channel) (last : Bool) (content : Option Bytes) : Channel × Phase :=
  let content := content.filter (!·.isEmpty)
  if c.ended then (c, .done (if content.isSome then .error writeAfterLast else .ok ()))
  else match c.announce with
    | (c, .error e) => (c, .done (.error e))
    | (c, .ok ()) =>
      match content with
      | some data => c.send (.chunk data) (.content last)
      | none => c.sendEnd last

def resume (c : Channel) : Phase → Channel × Phase
  | .content last =>
    match c.slot with
    | .taken => { c with slot := .empty }.sendEnd last
    | .lost => ({ c with slot := .empty }, .done (.error bodyDropped))
    | _ => (c, .content last)
  | .ending =>
    match c.slot with
    | .taken => ({ c with slot := .empty }, .done (.ok ()))
    | .lost => ({ c with slot := .empty }, .done (.error bodyDropped))
    | _ => (c, .ending)
  | .done result => (c, .done result)

def close (c : Channel) : Channel := { c with closed := true }

def accept (c : Channel) : Channel × Opening :=
  match c.reader with
  | .waiting =>
    match c.offered with
    | some head =>
      ({ c with offered := none, reader := .reading (.ofHeaders head.headers) false },
        .response head)
    | none =>
      if c.closed then ({ c with reader := .gone }, .refused droppedBeforeCommit)
      else (c, .pending)
  | _ => (c, .pending)

def poll (c : Channel) : Channel × Pull :=
  match c.reader with
  | .reading size false =>
    match c.slot with
    | .full (.chunk data) => ({ c with slot := .taken }, .frame data)
    | .full .eof => ({ c with slot := .taken, reader := .reading size true }, .ended)
    | _ =>
      if c.closed then ({ c with reader := .reading size true }, .failed droppedBeforeEnd)
      else (c, .pending)
  | .reading _ true => (c, .ended)
  | _ => (c, .pending)

def drop (c : Channel) : Channel :=
  let slot := match c.slot with
    | .full _ => .lost
    | slot => slot
  { c with reader := .gone, offered := none, slot }

def isEndStream (c : Channel) : Bool :=
  match c.reader with
  | .reading _ ended => ended
  | _ => false

def hint (c : Channel) : SizeHint :=
  match c.reader with
  | .reading size ended => if ended then .exact 0 else size.hint
  | _ => .unknown

end Channel

end Gateway
