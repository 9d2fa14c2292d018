import Gateway.Handler

set_option autoImplicit false

namespace Gateway

inductive Sight where
  | message (m : Message)
  | request (r : Request)
  | committed (answer : Bool)
  | wrote (result : Sent) (committed : Bool)

abbrev Journal := List Sight

namespace Reply

def revalidate (r : Reply) (m : Message) : Reply :=
  match m.headers.get? .ifNoneMatch, r.headers.get? .etag with
  | some known, some tag => if known = tag then { r with status := 304, frames := [] } else r
  | _, _ => r

end Reply

namespace Handler

def constant (reply : Except HttpError Reply) (revalidates : Bool) : Handler Journal :=
  .ofFunction fun journal m =>
    (journal ++ [.message m], reply.map fun r => if revalidates then r.revalidate m else r)

end Handler

namespace Script

inductive Action where
  | status (n : Nat)
  | header (name : Header.Name) (value : Header.Value)
  | committed
  | write (last : Bool) (content : Option Bytes) (ignoreErrors : Bool)
  | fail (error : HttpError)

variable {σ : Type} [Sink σ]

def setHeader (s : σ) (name : Header.Name) (value : Header.Value) : σ :=
  let head := Sink.head s
  Sink.setHead s { head with headers := head.headers.insert name value }

def run : List Action → Journal → σ → Journal × σ × Except HttpError Unit
  | [], journal, s => (journal, s, .ok ())
  | .status n :: rest, journal, s => run rest journal (Sink.setHead s { Sink.head s with status := n })
  | .header name value :: rest, journal, s => run rest journal (setHeader s name value)
  | .committed :: rest, journal, s => run rest (journal ++ [.committed (Sink.isCommitted s)]) s
  | .write last content ignoreErrors :: rest, journal, s =>
    let (s, result) := Sink.write s last content
    let journal := journal ++ [.wrote result (Sink.isCommitted s)]
    match result with
    | .ok () => run rest journal s
    | .error e => if ignoreErrors then run rest journal s else (journal, s, .error (.response e))
  | .fail e :: _, journal, s => (journal, s, .error e)

end Script

def Handler.script (actions : List Script.Action) : Handler Journal where
  handle journal request sink :=
    let (journal, sink, result) := Script.run actions (journal ++ [.request request]) sink
    ⟨journal, request, sink, result⟩

inductive Part where
  | constant (reply : Except HttpError Reply) (revalidates : Bool)
  | script (actions : List Script.Action)

def Part.handler : Part → Handler Journal
  | constant reply revalidates => .constant reply revalidates
  | script actions => .script actions

end Gateway
