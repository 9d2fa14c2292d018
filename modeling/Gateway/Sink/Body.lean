import Gateway.Sink

set_option autoImplicit false

namespace Gateway

inductive Frame where
  | data (content : Bytes)
  | trailers (headers : Header.Map)
  | failure (reason : Text)
deriving DecidableEq

namespace Frame

def trailersError : SendError := .invalidBody "trailers are not supported".toList

def failureError (reason : Text) : SendError :=
  .invalidBody ("resolve response body error: ".toList ++ reason)

-- Writes the data of a body one by one and then its end. Trailers and failures end it early, and so
-- does a write that fails.
def sendAll {σ : Type} [Sink σ] : List Frame → σ → σ × Sent
  | [], s => Sink.write s true none
  | data content :: rest, s =>
    match Sink.write s false (some content) with
    | (s, .ok ()) => sendAll rest s
    | (s, .error e) => (s, .error e)
  | trailers _ :: _, s => (s, .error trailersError)
  | failure reason :: _, s => (s, .error (failureError reason))

end Frame

end Gateway
