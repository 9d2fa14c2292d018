import Gateway.Proofs.Gzip.Fault
import Gateway.Proofs.Gzip.Revalidation

set_option autoImplicit false

namespace Gateway.Gzip

namespace Stage

section Completing

variable {σ κ : Type} [Sink σ] [Deflate.Compressor κ]

theorem complete_quiet (r : Response (Logged σ) κ) (result : Except HttpError Unit) (free : r.holder = none)
    (completed : r.completed = false) (ended : result = .ok () → r.state = .finished) :
    (complete r result).1.sink = r.sink ∧ (result ≠ .ok () → ∃ e, (complete r result).2 = .error e) := by
  cases result with
  | ok done =>
      have finished := ended rfl
      have starts : r.start 0 .succeeded = ({ r with completed := true }, .done (.ok ())) := by
        simp [Response.start, completed, Response.dispatch, finished]
      have called := Response.call_settled r .succeeded { r with completed := true } (.ok ()) (by
        rw [starts]
        exact Response.settle_done 0 _ _)
      refine ⟨?_, fun failed => (failed rfl).elim⟩
      rw [complete, called]
  | error e =>
      refine ⟨failed_sink r completed free e, fun _ => ?_⟩
      rw [complete]
      generalize r.call .failed = called
      obtain ⟨q, sent⟩ := called
      cases sent with
      | ok done => exact ⟨e, rfl⟩
      | error e => exact ⟨.response e, rfl⟩

theorem complete_lends (n : Nat) (r : Response σ κ) (result : Except HttpError Unit) (lends : r.Lends n) :
    (complete r result).1.Lends n := by
  cases result with
  | ok done => exact Response.call_lends n r .succeeded lends
  | error e =>
      have called := Response.call_lends n r .failed lends
      rw [complete]
      generalize r.call .failed = p at called
      obtain ⟨q, sent⟩ := p
      cases sent <;> exact called

omit [Sink σ] in
theorem returned_entry (n : Nat) (r : Response σ κ) (lends : r.Lends n) :
    (resourcesAfter r).engines.checkedOut = n := by
  have released := Session.release_entry_lent n r.session r.resources lends
  rw [Session.Lent, Session.release_entry_entry] at released
  exact released

end Completing

variable (s : Stage) {σ κ α : Type} [Sink σ] [Deflate.Compressor κ]
    (f : α → Message → α × Except HttpError Reply) (a : α)
  (request : Request) (resources : Resources κ) (sink : σ)

def plainSink {τ : Type} [Sink τ] (s : Stage) (request : Request) (sink : τ) : τ :=
  if s.isEligible request then s.ensureVary sink else sink

theorem wrap_plain {τ : Type} [Sink τ] (inner : Handler α) (other : ¬ s.compresses request = true) (sink : τ) :
    (s.wrap inner).handle (resources, a) request sink =
      let o := inner.handle a request (s.plainSink request sink)
      ⟨(resources, o.state), o.request, o.sink, o.result⟩ := by
  by_cases eligible : s.isEligible request = true
  · have refused : (request.headers.contains .contentEncoding || !accepts request.headers) = true := by
      simpa [compresses, eligible, Bool.or_eq_true, Classical.or_iff_not_imp_left] using other
    simp only [wrap, plainSink, eligible, refused, Bool.not_true, Bool.false_eq_true, if_false, if_true]
  · simp only [wrap, plainSink, Bool.eq_false_iff.mpr eligible, Bool.not_false, Bool.false_eq_true, if_false, if_true]

theorem plain_sink_log (sink : Logged σ) : (s.plainSink request sink).log = sink.log := by
  rw [plainSink, ensureVary]
  cases s.vary with
  | none => split <;> rfl
  | some vary => split <;> rfl

def sentLog (reply : Reply) : List Delivery :=
  if s.compresses request then
    (reply.sentTo (s.response (⟨sink, []⟩ : Logged σ) resources (markedTags request))).sink.log
  else (reply.sentTo (s.plainSink request (⟨sink, []⟩ : Logged σ))).log

section Outer

variable [Deflate.LawfulCompressor κ]

theorem direct_truthful (s : Logged σ) (unlogged : s.log = []) :
    Handler.Truthful (f a request.copyMessage).2 (fun reply => (reply.sentTo s).log)
      ((Handler.ofFunction f).handle a request s).sink.log ((Handler.ofFunction f).handle a request s).result := by
  refine Handler.answered_truthful f a request s _ _ logged_stops Logged.log (fun _ partly => partly)
    (fun _ _ _ closes => closes) ?_ unlogged _ fun failed => ?_
  · intro d member
    rw [unlogged] at member
    cases member
  · cases result : ((Handler.ofFunction f).handle a request s).result with
    | ok done => exact (failed result).elim
    | error e => exact ⟨e, rfl⟩

omit [Sink σ] [Deflate.LawfulCompressor κ] in
theorem response_ongoing (size : minBufferSize ≤ s.bufferSize) (ready : resources.engines.Ready) (tags : Option Text) :
    (s.response (⟨sink, []⟩ : Logged σ) resources tags).Ongoing :=
  ⟨fun _ member => (List.not_mem_nil member).elim, rfl, rfl, rfl, .unwritten rfl rfl rfl size ready rfl⟩

theorem compressed_truthful (compressed : s.compresses request = true) (size : minBufferSize ≤ s.bufferSize)
    (ready : resources.engines.Ready) :
    let staged := (s.wrap (Handler.ofFunction f)).handle (resources, a) request (⟨sink, []⟩ : Logged σ)
    Handler.Truthful (f a (s.shown request).copyMessage).2 (s.sentLog request resources sink)
      staged.sink.log staged.result ∧
    staged.state.1.engines.checkedOut = resources.engines.checkedOut := by
  rw [s.wrap_compressing request compressed]
  have ongoing := s.response_ongoing resources sink size ready (markedTags request)
  have stands :=
    Handler.answered_stands f a (s.shown request) (s.response ⟨sink, []⟩ resources (markedTags request)) _ _
    Response.response_stops ongoing
  have truthful := Handler.answered_truthful f a (s.shown request)
    (s.response (⟨sink, []⟩ : Logged σ) resources (markedTags request)) _ _ Response.response_stops
      (fun r => r.sink.log)
    (fun _ going => going.partly) (fun _ _ _ ended => ended.closes) ongoing rfl
  have lends :=
    Handler.answered_keeps f a (s.shown request)
      (s.response (⟨sink, []⟩ : Logged σ) resources (markedTags request))
    (Response.Lends resources.engines.checkedOut) (fun _ _ lends => lends)
    (fun r last content lends => Response.call_lends _ r (.write last content) lends) rfl
  have sent : s.sentLog request resources sink =
      fun reply => (reply.sentTo (s.response (⟨sink, []⟩ : Logged σ) resources (markedTags request))).sink.log := by
    funext reply
    rw [sentLog, if_pos compressed]
  generalize (Handler.ofFunction f).handle a (s.shown request)
    (s.response (⟨sink, []⟩ : Logged σ) resources (markedTags request)) = o at stands truthful lends
  obtain ⟨state, request', r, result⟩ := o
  -- Where all went well the response is at its end already.
  have rest : r.holder = none ∧ r.completed = false ∧ (result = .ok () → r.state = .finished) := by
    rcases stands with ⟨going, failed⟩ | ⟨last, closing, ended⟩
    · exact ⟨going.free, going.completed, fun fine => (failed fine).elim⟩
    · exact ⟨ended.free, ended.completed, fun _ => ended.state⟩
  obtain ⟨quiet, failed⟩ := complete_quiet r result rest.1 rest.2.1 rest.2.2
  have completed := complete_lends _ r result lends
  dsimp only
  rw [sent, quiet]
  exact ⟨truthful _ failed, returned_entry _ _ completed⟩

theorem truncation_told (size : minBufferSize ≤ s.bufferSize) (ready : resources.engines.Ready) :
    let direct := (Handler.ofFunction f).handle a request (⟨sink, []⟩ : Logged σ)
    let staged := (s.wrap (Handler.ofFunction f)).handle (resources, a) request (⟨sink, []⟩ : Logged σ)
    Handler.Truthful (f a request.copyMessage).2 (fun reply => (reply.sentTo (⟨sink, []⟩ : Logged σ)).log)
      direct.sink.log
      direct.result ∧
    Handler.Truthful (f a (s.shown request).copyMessage).2 (s.sentLog request resources sink)
      staged.sink.log staged.result ∧
    staged.state.1.engines.checkedOut = resources.engines.checkedOut := by
  refine ⟨direct_truthful f a request ⟨sink, []⟩ rfl, ?_⟩
  by_cases compressed : s.compresses request = true
  · exact s.compressed_truthful f a request resources sink compressed size ready
  · have sent : s.sentLog request resources sink =
        fun reply => (reply.sentTo (s.plainSink request (⟨sink, []⟩ : Logged σ))).log := by
      funext reply
      rw [sentLog, if_neg compressed]
    rw [s.wrap_plain a request resources _ compressed, s.shown_other request compressed, sent]
    exact ⟨direct_truthful f a request _ (s.plain_sink_log request _), rfl⟩

end Outer

section Broken

def broken (state : Unit) (_ : Message) : Unit × Except HttpError Reply :=
  (state, .ok ⟨200, .http11, .ofLines [html], [.data [104], .failure []]⟩)

theorem truncation_told_broken :
    stage.1.compresses (visit true) = true ∧
    let direct := (Handler.ofFunction broken).handle () (visit true) (⟨.new .empty, []⟩ : Logged Recorder)
    let staged :=
      (stage.1.wrap (Handler.ofFunction broken)).handle (stage.2, ()) (visit true)
        (⟨.new .empty, []⟩ : Logged Recorder)
    direct.sink.log.map (·.last) = [false] ∧ (∃ e, direct.result = .error e) ∧
    (∀ d ∈ staged.sink.log, d.last = false) ∧ (∃ e, staged.result = .error e) ∧
    staged.state.1.engines.checkedOut = 0 := by
  have size : minBufferSize ≤ stage.1.bufferSize := by decide +kernel
  have unused : stage.2.engines.idle = [] := List.isEmpty_iff.mp (by decide +kernel)
  have ready : stage.2.engines.Ready := by
    rw [Deflate.Pool.Ready, unused]
    exact fun _ member => (List.not_mem_nil member).elim
  have cut (answer : Except HttpError Reply)
      (answered : answer = (broken () ⟨[], .root, .http11, .empty, none, none⟩).2) :
      ¬ Reply.IsWhole answer := by
    rintro ⟨reply, rfl, sound⟩
    cases answered
    cases sound
  obtain ⟨directly, behind, returned⟩ :=
    truncation_told stage.1 broken () (visit true) stage.2 (Recorder.new .empty) size ready
  have untold (log : List Delivery) (told : (∃ d ∈ log, d.last = true) → False) : ∀ d ∈ log, d.last = false := by
    simpa using told
  have one := untold _ fun told => cut _ rfl (directly.complete.mp told).1
  have two := untold _ fun told => cut _ rfl (behind.complete.mp told).1
  exact ⟨by decide +kernel, by decide +kernel, directly.reported one, two, behind.reported two,
    returned.trans (by decide +kernel)⟩

end Broken

end Stage

end Gateway.Gzip
