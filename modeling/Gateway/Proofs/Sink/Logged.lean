import Gateway.Handler
import Gateway.Sink.Body
import Gateway.Sink.Recorder

set_option autoImplicit false

namespace Gateway

variable {σ : Type}

structure Delivery where
  head : Head
  last : Bool
  content : Option Bytes
  result : Sent

structure Logged (σ : Type) where
  sink : σ
  log : List Delivery

namespace Logged

def committed (s : Logged σ) : Option Head := s.log.head?.map (·.head)

theorem unwritten_uncommitted (s : Logged σ) (unwritten : s.log = []) : s.committed = none := by
  rw [committed, unwritten]
  rfl

variable [Sink σ]

def write (s : Logged σ) (last : Bool) (content : Option Bytes) : Logged σ × Sent :=
  let (sink, result) := Sink.write s.sink last content
  (⟨sink, s.log ++ [⟨Sink.head s.sink, last, content, result⟩]⟩, result)

instance : Sink (Logged σ) where
  head s := Sink.head s.sink
  setHead s head := { s with sink := Sink.setHead s.sink head }
  isCommitted s := Sink.isCommitted s.sink
  write := write

def octets (log : List Delivery) : Bytes := log.flatMap (·.content.getD [])

def upcoming (s : Logged σ) : Head := s.committed.getD (Sink.head s)

theorem write_upcoming (s : Logged σ) (last : Bool) (content : Option Bytes) :
    (Sink.write s last content).1.upcoming = s.upcoming := by
  obtain ⟨sink, log⟩ := s
  cases log with
  | nil => rfl
  | cons first rest => rfl

theorem committed_upcoming (s : Logged σ) (head : Head) (committed : s.committed = some head) : s.upcoming = head := by
  rw [upcoming, committed, Option.getD_some]

theorem written_committed (s : Logged σ) (written : s.log ≠ []) : s.committed = some s.upcoming := by
  obtain ⟨sink, log⟩ := s
  cases log with
  | nil => exact (written rfl).elim
  | cons first rest => rfl

theorem unwritten_upcoming (s : Logged σ) (unwritten : s.log = []) : s.upcoming = Sink.head s := by
  rw [upcoming, Logged.committed, unwritten]
  rfl

end Logged

theorem Frame.send_all_keeps [Sink σ] (P : σ → Prop)
    (keeps : ∀ (s : σ) (last : Bool) (content : Option Bytes), P s → P (Sink.write s last content).1)
    (frames : List Frame) (s : σ) (here : P s) : P (Frame.sendAll frames s).1 := by
  induction frames generalizing s with
  | nil => exact keeps s true none here
  | cons frame rest ih =>
      cases frame with
      | data content =>
          have next := keeps s false (some content) here
          rw [Frame.sendAll]
          generalize Sink.write s false (some content) = wrote at next
          obtain ⟨t, result⟩ := wrote
          cases result with
          | ok done => exact ih t next
          | error e => exact next
      | _ => exact here

def Sink.Editable (σ : Type) [Sink σ] : Prop := ∀ (s : σ) (head : Head), Sink.head (Sink.setHead s head) = head

theorem Logged.edited_upcoming [Sink σ] (editable : Sink.Editable σ) (s : Logged σ) (head : Head)
    (unwritten : s.log = []) :
    (Sink.setHead s head).upcoming = head :=
  (unwritten_upcoming (Sink.setHead s head) unwritten).trans (editable s.sink head)

-- A sink does not fail as long as it is sound, and stays so up to its last write.
structure Sink.Reliable [Sink σ] (sound : σ → Prop) : Prop where
  accepts (s : σ) (last : Bool) (content : Option Bytes) : sound s → (Sink.write s last content).2 = .ok ()
  stays (s : σ) (content : Option Bytes) : sound s → sound (Sink.write s false content).1
  edits (s : σ) (head : Head) : sound s → sound (Sink.setHead s head)

theorem logged_reliable [Sink σ] (sound : σ → Prop) (reliable : Sink.Reliable sound) :
    Sink.Reliable fun s : Logged σ => sound s.sink where
  accepts s := reliable.accepts s.sink
  stays s := reliable.stays s.sink
  edits s := reliable.edits s.sink

def Recorder.IsOpen (r : Recorder) : Prop := r.failing = false ∧ r.ended = false

theorem recorder_reliable : Sink.Reliable Recorder.IsOpen where
  accepts r last content := by
    rintro ⟨works, more⟩
    simp [Sink.write, Recorder.write, works, more]
  stays r content := by
    rintro ⟨works, more⟩
    simp [Sink.write, Recorder.write, works, more, Recorder.IsOpen]
  edits _ _ here := here

theorem recorder_editable : Sink.Editable Recorder := fun _ _ => rfl

def Handler.ofAnswers (f : Message → Except HttpError Reply) : Handler Unit :=
  .ofFunction fun state message => (state, f message)

theorem Handler.answer_sent {τ : Type} [Sink τ] (f : Message → Except HttpError Reply) (request : Request) (sink : τ)
    (reply : Reply) (answer : f request.copyMessage = .ok reply) :
    ((ofAnswers f).handle () request sink).sink = (reply.send sink).1 := by
  simp only [ofAnswers, ofFunction, answer]

theorem Reply.sent_head {σ : Type} [Sink σ] (editable : Sink.Editable σ) (reply : Reply) (sink : Logged σ) (head : Head)
    (unwritten : sink.log = []) (committed : (reply.send sink).1.committed = some head) :
    head = reply.headOn (Sink.head sink) := by
  have kept := Frame.send_all_keeps (fun s : Logged σ => s.upcoming = reply.headOn (Sink.head sink))
    (fun s last content same => (Logged.write_upcoming s last content).trans same) reply.frames
    (Sink.setHead sink (reply.headOn (Sink.head sink))) (Logged.edited_upcoming editable sink _ unwritten)
  exact (Logged.committed_upcoming _ head committed).symm.trans kept

end Gateway
