import Gateway.Proofs.Sink.Conduct

set_option autoImplicit false

namespace Gateway

variable {σ : Type} [Sink σ]

def Writing.follow : List Writing → σ → σ × Sent
  | [], s => (s, .ok ())
  | w :: rest, s =>
    match Sink.write s w.1 w.2 with
    | (s, .ok ()) => follow rest s
    | (s, .error e) => (s, .error e)

namespace Frame

def plan : List Frame → List Writing × Sent
  | [] => ([(true, none)], .ok ())
  | data content :: rest => ((false, some content) :: (plan rest).1, (plan rest).2)
  | trailers _ :: _ => ([], .error trailersError)
  | failure reason :: _ => ([], .error (failureError reason))

def isData : Frame → Bool
  | data _ => true
  | _ => false

theorem send_all_plan (frames : List Frame) (s : σ) :
    sendAll frames s =
      ((Writing.follow (plan frames).1 s).1,
        (Writing.follow (plan frames).1 s).2.bind fun _ => (plan frames).2) := by
  induction frames generalizing s with
  | nil =>
      rw [sendAll, plan, Writing.follow]
      generalize Sink.write s true none = wrote
      obtain ⟨t, result⟩ := wrote
      cases result <;> rfl
  | cons frame rest ih =>
      cases frame with
      | data content =>
          rw [sendAll, plan, Writing.follow]
          generalize Sink.write s false (some content) = wrote
          obtain ⟨t, result⟩ := wrote
          cases result with
          | ok done => exact ih t
          | error e => rfl
      | _ => rfl

end Frame

end Gateway
