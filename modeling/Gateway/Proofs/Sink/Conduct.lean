import Gateway.Handler.Script
import Gateway.Proofs.Sink.Logged

set_option autoImplicit false

namespace Gateway

abbrev Writing := Bool × Option Bytes

def Writing.tidy (w : Writing) : Writing := (w.1, w.2.filter (!·.isEmpty))

def Delivery.writing (d : Delivery) : Writing := (d.last, d.content)

-- What was written came through, up to a write that is the last one or that fails.
def Relays (asked : List Writing) (log : List Delivery) : Prop :=
  ∃ front rest, asked = front ++ rest ∧ log.map Delivery.writing = front.map Writing.tidy ∧
    (rest ≠ [] → ∃ d, log.getLast? = some d ∧ (d.last = true ∨ d.result ≠ .ok ()))

inductive Act where
  | edit (head : Head)
  | write (last : Bool) (content : Option Bytes)

namespace Act

def writing? : Act → Option Writing
  | .edit _ => none
  | .write last content => some (last, content)

def writings (acts : List Act) : List Writing := acts.filterMap writing?

-- The head that a sink has at the first write, and in the end if there is none.
def opening (head : Head) : List Act → Head
  | [] => head
  | .edit head :: rest => opening head rest
  | .write _ _ :: _ => head

variable {σ : Type} [Sink σ]

def apply (s : σ) : Act → σ
  | .edit head => Sink.setHead s head
  | .write last content => (Sink.write s last content).1

def conduct (s : σ) (acts : List Act) : σ := acts.foldl apply s

end Act

end Gateway
