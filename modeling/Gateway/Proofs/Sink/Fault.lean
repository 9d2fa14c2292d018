import Gateway.Proofs.Sink.Body

set_option autoImplicit false

namespace Gateway

def Delivery.IsPartial (d : Delivery) : Prop := d.last = false ∧ d.result = .ok ()

namespace Logged

def IsPartial (log : List Delivery) : Prop := ∀ d ∈ log, d.IsPartial

def Closes (log : List Delivery) (last : Bool) (result : Sent) : Prop :=
  ∃ front final, log = front ++ [final] ∧ IsPartial front ∧ final.result = result ∧
    (final.last = true → last = true) ∧ (result = .ok () → final.last = true)

theorem partial_append (log : List Delivery) (d : Delivery) (whole : IsPartial log) (more : d.IsPartial) :
    IsPartial (log ++ [d]) := by
  intro one member
  rcases List.mem_append.mp member with old | new
  · exact whole one old
  · exact List.mem_singleton.mp new ▸ more

end Logged

-- A sink with which it goes on as long as no write fails or is the last.
structure Sink.Stops {τ : Type} [Sink τ] (going : τ → Prop) (shut : τ → Bool → Sent → Prop) : Prop where
  write (s : τ) (last : Bool) (content : Option Bytes) : going s →
    (last = false ∧ (Sink.write s last content).2 = .ok () ∧ going (Sink.write s last content).1) ∨
    (shut (Sink.write s last content).1 last (Sink.write s last content).2 ∧
      ((Sink.write s last content).2 = .ok () → last = true))
  edit (s : τ) (head : Head) : going s → going (Sink.setHead s head)

theorem logged_stops {σ : Type} [Sink σ] :
    Sink.Stops (fun s : Logged σ => Logged.IsPartial s.log) (fun s last result => Logged.Closes s.log last result) where
  write s last content going := by
    have logged : (Sink.write s last content).1.log =
        s.log ++ [⟨Sink.head s.sink, last, content, (Sink.write s last content).2⟩] := rfl
    by_cases more : last = false ∧ (Sink.write s last content).2 = .ok ()
    · obtain ⟨more, fine⟩ := more
      refine .inl ⟨more, fine, ?_⟩
      rw [logged]
      exact Logged.partial_append s.log _ going ⟨more, fine⟩
    · have ends : (Sink.write s last content).2 = .ok () → last = true := fun fine => by simpa [fine] using more
      exact .inr ⟨⟨s.log, _, logged, going, rfl, id, ends⟩, ends⟩
  edit _ _ going := going

namespace Frame

variable {τ : Type} [Sink τ] (going : τ → Prop) (shut : τ → Bool → Sent → Prop)

inductive Comes (frames : List Frame) (p : τ × Sent) : Prop where
  | whole (sound : frames.all isData = true) (last : Bool) (closing : shut p.1 last p.2)
  | cut (faulty : ¬ frames.all isData = true) (failed : p.2 ≠ .ok ()) (rest : going p.1 ∨ shut p.1 false p.2)

theorem send_all_comes (stops : Sink.Stops going shut) (frames : List Frame) (s : τ) (here : going s) :
    Comes going shut frames (sendAll frames s) := by
  induction frames generalizing s with
  | nil =>
      rcases stops.write s true none here with ⟨more, -⟩ | ⟨ended, -⟩
      · cases more
      · exact .whole rfl true ended
  | cons frame rest ih =>
      cases frame with
      | data content =>
          have next := stops.write s false (some content) here
          rw [sendAll]
          generalize Sink.write s false (some content) = wrote at next
          obtain ⟨t, result⟩ := wrote
          cases result with
          | ok done =>
              obtain ⟨-, -, going'⟩ := next.resolve_right fun ended => by cases ended.2 rfl
              cases ih t going' with
              | whole sound last ended => exact .whole sound last ended
              | cut faulty failed left => exact .cut (by simpa [isData] using faulty) failed left
          | error e =>
              obtain ⟨ended, -⟩ := next.resolve_left fun more => by cases more.2.1
              by_cases sound : (data content :: rest).all isData = true
              · exact .whole sound false ended
              · exact .cut sound (by simp) (.inr ended)
      | trailers headers => exact .cut (by simp [isData]) (by simp [sendAll]) (.inl here)
      | failure reason => exact .cut (by simp [isData]) (by simp [sendAll]) (.inl here)

end Frame

namespace Reply

def sentTo {τ : Type} [Sink τ] (r : Reply) (s : τ) : τ :=
  (Writing.follow (Frame.plan r.frames).1 (Sink.setHead s (r.headOn (Sink.head s)))).1

theorem send_sent {τ : Type} [Sink τ] (r : Reply) (s : τ) : (r.send s).1 = r.sentTo s := by
  rw [send, Frame.send_all_plan]
  rfl

end Reply

def Reply.IsWhole (answer : Except HttpError Reply) : Prop :=
  ∃ reply, answer = .ok reply ∧ reply.frames.all Frame.isData = true

-- What a sink was given by a handler, with its answer and with what was given to the sink once a reply was
-- sent. The sink was told that the response is complete just if it is, and told nothing after that. It was
-- told nothing either after a write that failed, or after what is wrong with the body. Where it was not
-- told the end there is an error.
structure Handler.Truthful (answer : Except HttpError Reply) (sent : Reply → List Delivery) (log : List Delivery)
    (result : Except HttpError Unit) : Prop where
  complete : (∃ d ∈ log, d.last = true) ↔ Reply.IsWhole answer ∧ ∀ d ∈ log, d.last = false → d.result = .ok ()
  final (front : List Delivery) (d : Delivery) (rest : List Delivery) : log = front ++ d :: rest → d.last = true →
    rest = [] ∧ ∀ c ∈ front, c.last = false
  stops (front : List Delivery) (d : Delivery) (rest : List Delivery) : log = front ++ d :: rest → d.result ≠ .ok () →
    rest = []
  silent (e : HttpError) : answer = .error e → log = []
  faulty (reply : Reply) : answer = .ok reply → log = sent reply
  reported : (∀ d ∈ log, d.last = false) → ∃ e, result = .error e

namespace Handler

section Telling

variable (answer : Except HttpError Reply) (sent : Reply → List Delivery) (log : List Delivery)
  (result : Except HttpError Unit) (silent : ∀ e, answer = .error e → log = [])
  (faulty : ∀ reply, answer = .ok reply → log = sent reply)

include silent faulty

theorem truthful_partial (broken : ¬ Reply.IsWhole answer) (partly : Logged.IsPartial log)
    (failed : ∃ e, result = .error e) :
    Truthful answer sent log result where
  complete := by
    refine ⟨?_, fun whole => (broken whole.1).elim⟩
    rintro ⟨d, member, last⟩
    exact absurd ((partly d member).1.symm.trans last) nofun
  final front d rest split last := absurd ((partly d (by simp [split])).1.symm.trans last) nofun
  stops front d rest split refused := (refused (partly d (by simp [split])).2).elim
  silent := silent
  faulty := faulty
  reported _ := failed

theorem truthful_closed (last : Bool) (closing : Sent) (closes : Logged.Closes log last closing)
    (whole : last = true → Reply.IsWhole answer) (failed : closing ≠ .ok () → ∃ e, result = .error e) :
    Truthful answer sent log result := by
  obtain ⟨front, final, rfl, partly, rfl, ends, ended⟩ := closes
  -- Only the latest may be anything but partial.
  have placed (before : List Delivery) (d : Delivery) (rest : List Delivery)
      (split : front ++ [final] = before ++ d :: rest)
      (other : ¬ d.IsPartial) : rest = [] ∧ before = front := by
    rcases List.append_eq_append_iff.mp split with ⟨middle, rfl, tail⟩ | ⟨middle, rfl, tail⟩
    · cases middle with
      | nil =>
          obtain ⟨-, rfl⟩ : d = final ∧ rest = [] := by simpa [eq_comm] using tail
          exact ⟨rfl, by simp⟩
      | cons c more => simp at tail
    · cases middle with
      | nil =>
          obtain ⟨-, rfl⟩ : d = final ∧ rest = [] := by simpa [eq_comm] using tail
          exact ⟨rfl, by simp⟩
      | cons c more =>
          obtain ⟨rfl, -⟩ := List.cons.inj tail
          exact (other (partly d (by simp))).elim
  refine ⟨⟨?_, ?_⟩, ?_, ?_, silent, faulty, ?_⟩
  · rintro ⟨d, member, here⟩
    have told : final.last = true := by
      rcases List.mem_append.mp member with old | new
      · exact absurd ((partly d old).1.symm.trans here) nofun
      · exact List.mem_singleton.mp new ▸ here
    refine ⟨whole (ends told), fun c listed more => ?_⟩
    rcases List.mem_append.mp listed with old | new
    · exact (partly c old).2
    · rw [List.mem_singleton.mp new, told] at more
      cases more
  · rintro ⟨complete, fine⟩
    refine ⟨final, by simp, ?_⟩
    cases told : final.last with
    | true => rfl
    | false => exact told.symm.trans (ended (fine final (by simp) told))
  · intro before d rest split told
    obtain ⟨rfl, rfl⟩ := placed before d rest split fun partial_ => absurd (partial_.1.symm.trans told) nofun
    exact ⟨rfl, fun c member => (partly c member).1⟩
  · intro before d rest split refused
    exact (placed before d rest split fun partial_ => refused partial_.2).1
  · intro told
    refine failed fun fine => ?_
    exact absurd ((told final (by simp)).symm.trans (ended fine)) nofun

end Telling

section Answering

variable {τ : Type} [Sink τ] {α : Type} (f : α → Message → α × Except HttpError Reply) (a : α)
    (request : Request) (s : τ)
  (state : α)

theorem of_function_failed (e : HttpError) (answered : f a request.copyMessage = (state, .error e)) :
    (ofFunction f).handle a request s = ⟨state, request, s, .error e⟩ := by
  simp only [ofFunction, answered]

theorem of_function_replied (reply : Reply) (answered : f a request.copyMessage = (state, .ok reply)) :
    (ofFunction f).handle a request s =
      ⟨state, request, (reply.send s).1, (reply.send s).2.mapError HttpError.response⟩ := by
  simp only [ofFunction, answered]

theorem answered_keeps (P : τ → Prop) (edits : ∀ s head, P s → P (Sink.setHead s head))
    (writes : ∀ s last content, P s → P (Sink.write s last content).1) (here : P s) :
    P ((ofFunction f).handle a request s).sink := by
  cases answered : f a request.copyMessage with
  | mk state answer =>
      cases answer with
      | error e =>
          rw [of_function_failed f a request s state e answered]
          exact here
      | ok reply =>
          rw [of_function_replied f a request s state reply answered]
          exact Frame.send_all_keeps P writes reply.frames _ (edits s _ here)

variable (going : τ → Prop) (shut : τ → Bool → Sent → Prop) (stops : Sink.Stops going shut)

include stops

theorem answered_stands (here : going s) :
    (going ((ofFunction f).handle a request s).sink ∧ ((ofFunction f).handle a request s).result ≠ .ok ()) ∨
      ∃ last result, shut ((ofFunction f).handle a request s).sink last result := by
  cases answered : f a request.copyMessage with
  | mk state answer =>
      cases answer with
      | error e =>
          rw [of_function_failed f a request s state e answered]
          exact .inl ⟨here, nofun⟩
      | ok reply =>
          rw [of_function_replied f a request s state reply answered]
          have comes := Frame.send_all_comes going shut stops reply.frames (Sink.setHead s (reply.headOn (Sink.head s)))
            (stops.edit s _ here)
          rcases comes with ⟨-, last, ended⟩ | ⟨-, refused, going' | ended⟩
          · exact .inr ⟨last, _, ended⟩
          · refine .inl ⟨going', ?_⟩
            cases sent : (reply.send s).2 with
            | ok done => exact (refused sent).elim
            | error e => exact nofun
          · exact .inr ⟨false, _, ended⟩

variable (log : τ → List Delivery)

theorem answered_truthful (partly : ∀ s, going s → Logged.IsPartial (log s))
    (closes : ∀ s last result, shut s last result → Logged.Closes (log s) last result) (here : going s)
    (unlogged : log s = []) (result : Except HttpError Unit)
    (failed : ((ofFunction f).handle a request s).result ≠ .ok () → ∃ e, result = .error e) :
    Truthful (f a request.copyMessage).2 (fun reply => log (reply.sentTo s))
      (log ((ofFunction f).handle a request s).sink)
      result := by
  cases answered : f a request.copyMessage with
  | mk state answer =>
      cases answer with
      | error e =>
          rw [of_function_failed f a request s state e answered] at failed ⊢
          dsimp only
          refine truthful_partial _ _ _ _ (fun _ _ => unlogged) ?_ ?_ ?_ (failed ?_)
          · rintro reply ⟨⟩
          · rintro ⟨reply, given, -⟩
            cases given
          · intro d member
            rw [unlogged] at member
            cases member
          · exact nofun
      | ok reply =>
          rw [of_function_replied f a request s state reply answered] at failed ⊢
          have comes := Frame.send_all_comes going shut stops reply.frames (Sink.setHead s (reply.headOn (Sink.head s)))
            (stops.edit s _ here)
          have faulty (given : Reply) (same : Except.ok reply = Except.ok (ε := HttpError) given) :
              log (reply.send s).1 = log (given.sentTo s) := by
            cases same
            rw [Reply.send_sent]
          have reported (refused : (reply.send s).2 ≠ .ok ()) : ∃ e, result = .error e := by
            refine failed ?_
            cases sent : (reply.send s).2 with
            | ok done => exact (refused sent).elim
            | error e => exact nofun
          dsimp only
          cases comes with
          | whole sound last ended =>
              exact truthful_closed _ _ _ _ nofun faulty last _ (closes _ _ _ ended)
                (fun _ => ⟨reply, rfl, sound⟩) reported
          | cut broken refused rest =>
              have cut : ¬ Reply.IsWhole (.ok reply) := by
                rintro ⟨given, same, sound⟩
                cases same
                exact broken sound
              rcases rest with going' | ended
              · exact truthful_partial _ _ _ _ nofun faulty cut (partly _ going') (reported refused)
              · exact truthful_closed _ _ _ _ nofun faulty false _ (closes _ _ _ ended) nofun reported

end Answering

end Handler

end Gateway
