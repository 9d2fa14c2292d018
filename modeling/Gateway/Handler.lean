import Gateway.Sink.Body

set_option autoImplicit false

namespace Gateway

structure Outcome (α σ : Type) where
  state : α
  request : Request
  sink : σ
  result : Except HttpError Unit

structure Handler (α : Type) where
  handle : {σ : Type} → [Sink σ] → α → Request → σ → Outcome α σ

structure Reply where
  status : Nat
  version : Version
  headers : Header.Map
  frames : List Frame

namespace Reply

def headOn (r : Reply) (head : Head) : Head := ⟨r.status, r.version, head.headers.extend r.headers⟩

def send {σ : Type} [Sink σ] (r : Reply) (s : σ) : σ × Sent :=
  Frame.sendAll r.frames (Sink.setHead s (r.headOn (Sink.head s)))

end Reply

namespace Handler

def ofFunction {α : Type} (f : α → Message → α × Except HttpError Reply) : Handler α where
  handle state request sink :=
    match f state request.copyMessage with
    | (state, .error e) => ⟨state, request, sink, .error e⟩
    | (state, .ok reply) =>
      let (sink, sent) := reply.send sink
      ⟨state, request, sink, sent.mapError HttpError.response⟩

end Handler

universe u

structure Decorator (In Out : Type u) where
  decorate : In → Out

namespace Decorator

variable {A B C : Type u}

def identity : Decorator A A := ⟨id⟩

def sequence (first : Decorator A B) (second : Decorator B C) : Decorator A C :=
  ⟨fun raw => second.decorate (first.decorate raw)⟩

def andThen (this : Decorator A B) (other : Decorator B C) : Decorator A C := sequence this other

def compose (this : Decorator B C) (other : Decorator A B) : Decorator A C := sequence other this

end Decorator

end Gateway
