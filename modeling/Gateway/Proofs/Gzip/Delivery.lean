import Gateway.Proofs.Deflate.Encoder
import Gateway.Proofs.Gzip.Body
import Gateway.Proofs.Gzip.Lifecycle
import Gateway.Proofs.Gzip.Turns
import Gateway.Proofs.Sink.Logged

set_option autoImplicit false

namespace Gateway.Gzip

variable {σ κ : Type} [Sink σ] [Deflate.Compressor κ]

namespace Response

-- A compressed response on its way: all that the sink was given is part of the body.
structure Streams (sound : σ → Prop) (r : Response (Logged σ) κ) (e : Deflate.Engine κ) (data out : Bytes)
    (stage : Deflate.Stage) : Prop where
  state : r.state = .compressing
  sound : sound r.sink.sink
  partly : ∀ d ∈ r.sink.log, d.last = false
  quiet : r.queue = []
  carries : r.session.Carries r.resources e data out (Logged.octets r.sink.log) stage

structure Paused (sound : σ → Prop) (r : Response (Logged σ) κ) (data : Bytes) : Prop where
  streams : ∃ e out, r.Streams sound e data out .running ∧ e.input = [] ∧ e.finishing = false
  free : r.holder = none

-- The sink was given a whole member, and the last write has the trailer in one piece.
structure Delivered (r : Response (Logged σ) κ) (data : Bytes) : Prop where
  state : r.state = .finished
  log : ∃ front final chunk stream, r.sink.log = front ++ [final] ∧ (∀ d ∈ front, d.last = false) ∧
    final.last = true ∧ final.content = some (chunk ++ trailer (Checksum.start.add data)) ∧
    Logged.octets r.sink.log = header ++ (stream ++ trailer (Checksum.start.add data)) ∧
    Deflate.inflate? stream = some data

structure Takes (sound : σ → Prop) (last : Bool) (data : Bytes) (r q : Response (Logged σ) κ) : Prop where
  completed : q.completed = r.completed
  paused : last = false → q.Paused sound data
  delivered : last = true → q.Delivered data

omit [Sink σ] [Deflate.Compressor κ] in
theorem filter_octets (content : Option Bytes) : (content.filter (!·.isEmpty)).getD [] = content.getD [] := by
  cases content with
  | none => rfl
  | some octets => cases octets <;> rfl

section Settling

variable (sound : σ → Prop) (reliable : Sink.Reliable sound)

theorem octets_append (log : List Delivery) (d : Delivery) :
    Logged.octets (log ++ [d]) = Logged.octets log ++ d.content.getD [] := by
  simp [Logged.octets]

omit [Deflate.Compressor κ] in
theorem sent_octets (r : Response (Logged σ) κ) (last : Bool) (content : Option Bytes) :
    Logged.octets (r.sent last content).sink.log = Logged.octets r.sink.log ++ content.getD [] :=
  octets_append _ _

include reliable

theorem logged_write (s : Logged σ) (last : Bool) (content : Option Bytes) (here : sound s.sink) :
    (Sink.write s last content).2 = .ok () ∧
      (Sink.write s last content).1.log = s.log ++ [⟨Sink.head s.sink, last, content, .ok ()⟩] ∧
      (last = false → sound (Sink.write s last content).1.sink) := by
  have accepted := reliable.accepts s.sink last content here
  refine ⟨accepted, ?_, ?_⟩
  · rw [← accepted]
    rfl
  · rintro rfl
    exact reliable.stays s.sink content here

theorem sent_streams (r : Response (Logged σ) κ) (content : Option Bytes) (e : Deflate.Engine κ) (data out : Bytes)
    (stage : Deflate.Stage) (state : r.state = .compressing) (here : sound r.sink.sink)
    (partly : ∀ d ∈ r.sink.log, d.last = false) (quiet : r.queue = [])
    (carries : r.session.Carries r.resources e data out (Logged.octets r.sink.log ++ content.getD []) stage) :
    (r.sent false content).Streams sound e data out stage := by
  obtain ⟨-, logged, stays⟩ := logged_write sound reliable r.sink false content here
  refine ⟨state, stays rfl, ?_, quiet, sent_octets r false content ▸ carries⟩
  intro one member
  rcases List.mem_append.mp (logged ▸ member) with old | new
  · exact partly one old
  · rw [List.mem_singleton.mp new]

variable [Deflate.LawfulCompressor κ] (owed : κ → Nat) (bounded : Deflate.Bounded owed)

include bounded

-- Every write comes to its end, by the effort that each of its steps takes away from.
theorem settle_streams (r : Response (Logged σ) κ) (w : Write) (e : Deflate.Engine κ) (data out : Bytes)
    (stage : Deflate.Stage) (streams : r.Streams sound e data out stage)
    (under : w.Under r.session r.resources e data out (Logged.octets r.sink.log) stage) :
    ∃ q, settle 0 r (.compressing w) = some (q, .ok ()) ∧
      Takes sound w.last (data ++ w.content.getD []) r q := by
  obtain ⟨state, here, partly, quiet, -⟩ := streams
  have outcome := Write.step_outcome owed bounded w r.session r.resources e data out _ stage under
  generalize step : w.step r.session r.resources = p at outcome
  cases outcome with
  | onward d data' out' stage' action under' whole last sooner =>
      rcases action with flushed | ⟨idle, empty⟩
      · have octets : Logged.octets ((r.stepped p).sent false (some p.session.output)).sink.log =
            Logged.octets r.sink.log ++ p.session.output := sent_octets (r.stepped p) false _
        have next :=
          sent_streams sound reliable (r.stepped p) (some p.session.output) d data'
            out' stage' state here partly
          quiet under'.carries
        have accepted := reliable.accepts r.sink.sink false (some p.session.output) here
        obtain ⟨q, settled, completed, paused, delivered⟩ :=
          settle_streams _ p.write d data' out' stage' next (octets ▸ under')
        rw [whole, last] at *
        exact ⟨q, (settle_flush 0 r w p step flushed accepted).trans settled, completed, paused, delivered⟩
      · rw [empty, List.append_nil] at under'
        have next : (r.stepped p).Streams sound d data' out' stage' := ⟨state, here, partly, quiet, under'.carries⟩
        obtain ⟨q, settled, completed, paused, delivered⟩ :=
          settle_streams (r.stepped p) p.write d data' out' stage' next under'
        rw [whole, last] at *
        exact ⟨q, (settle_idle 0 r w p step idle).trans settled, completed, paused, delivered⟩
  | taken d out' action more carries empty open_ =>
      refine ⟨_, settle_taken 0 r w p step action, rfl, fun _ => ⟨?_, ?_⟩, fun last => ?_⟩
      · exact ⟨d, out', ⟨state, here, partly, by simp [unlock, stepped, quiet], carries⟩, empty, open_⟩
      · simp [unlock, stepped, quiet]
      · exact absurd (more.symm.trans last) nofun
  | ended d front out' action last output forwarded ended =>
      obtain ⟨accepted', logged', -⟩ := logged_write sound reliable r.sink true (some p.session.output) here
      refine ⟨_, settle_last 0 r w p step action accepted', rfl, fun more => ?_, fun _ => ⟨rfl, ?_⟩⟩
      · exact absurd (last.symm.trans more) nofun
      · have whole := Deflate.Engine.ended_complete d _ out' .ended ended (ended.finished.mpr rfl)
        refine ⟨r.sink.log, _, front, out', logged', partly, rfl, congrArg some output, ?_, whole⟩
        refine (congrArg Logged.octets logged').trans ?_
        rw [octets_append, Option.getD_some, output, ← List.append_assoc, forwarded, List.append_assoc]
termination_by w.effort owed r.session e
decreasing_by
  · exact sooner
  · exact sooner

theorem settle_write (r : Response (Logged σ) κ) (last : Bool) (content : Option Bytes) (e : Deflate.Engine κ)
    (data out : Bytes) (streams : r.Streams sound e data out .running) (empty : e.input = [])
    (open_ : e.finishing = false) :
    ∃ q, settle 0 r (.compressing (.new last content)) = some (q, .ok ()) ∧
      Takes sound last (data ++ content.getD []) r q := by
  have under := Write.new_under last content _ _ e data out _ streams.carries empty open_
  have settled := settle_streams sound reliable owed bounded r _ e data out .running streams under
  rwa [show (Write.new last content).content.getD [] = content.getD [] from filter_octets content] at settled

omit bounded
omit [Deflate.LawfulCompressor κ] in
theorem settle_heading (r : Response (Logged σ) κ) (e : Deflate.Engine κ) (data out : Bytes)
    (streams : r.Streams sound e data out .running) (empty : e.input = []) (open_ : e.finishing = false) :
    ∃ q, settle 0 r (.writing false none .heading) = some (q, .ok ()) ∧ Takes sound false data r q := by
  have accepted := reliable.accepts r.sink.sink false none streams.sound
  have next :=
    sent_streams sound reliable r none e data out .running streams.state streams.sound
      streams.partly streams.quiet
    (by simpa using streams.carries)
  refine ⟨(r.sent false none).unlock, ?_, rfl, fun _ => ⟨⟨e, out, ?_, empty, open_⟩, ?_⟩, nofun⟩
  · rw [settle_writing 0 r false none .heading accepted]
    exact settle_done 0 _ _
  · exact ⟨next.state, next.sound, next.partly, by simp [unlock, sent, streams.quiet], next.carries⟩
  · simp [unlock, sent, streams.quiet]

omit reliable
omit [Sink σ] [Deflate.Compressor κ] [Deflate.LawfulCompressor κ] in
theorem entry_acquired (p : Policy) (engines : Deflate.Pool κ) (length : Option Nat)
    (choice : Deflate.Entry κ × Deflate.Pool κ)
    (granted : p.entry? engines length = some choice) : engines.acquire? = some choice := by
  cases length with
  | none => exact granted
  | some n =>
      by_cases short : n < p.minSize
      · simp [Policy.entry?, short] at granted
      · simpa [Policy.entry?, short] using granted

omit [Sink σ] [Deflate.Compressor κ] [Deflate.LawfulCompressor κ] in
theorem judge_entry {τ : Type} (r : Response τ κ) (head : Head) (last : Bool)
    (content : Option Bytes) (headers : Header.Map)
    (entry : Deflate.Entry κ) (engines : Deflate.Pool κ)
    (coded : r.judge head last content = .coded headers entry engines) :
    r.resources.engines.acquire? = some (entry, engines) := by
  rw [judge] at coded
  by_cases confirms : head.status = 304
  · rw [if_pos confirms] at coded
    cases coded
  · rw [if_neg confirms] at coded
    by_cases allowed : allows r.policy head = true
    · simp only [allowed, Bool.not_true, Bool.false_eq_true, if_false] at coded
      generalize known : knownLength (Vary.ensure? head.headers r.vary) last content = length at coded
      cases granted : r.policy.entry? r.resources.engines length with
      | none => simp [granted] at coded
      | some choice =>
          obtain ⟨entry', engines'⟩ := choice
          obtain ⟨-, rfl, rfl⟩ : _ ∧ entry' = entry ∧ engines' = engines := by simpa [granted] using coded
          exact entry_acquired r.policy _ length _ granted
    · simp only [allowed, Bool.not_false, if_true] at coded
      cases coded

structure Opened {τ : Type} [Sink τ] (r : Response τ κ) (headers : Header.Map) (q : Response τ κ) : Prop where
  state : q.state = .compressing
  sink : q.sink = (r.setHeaders headers).sink
  holder : q.holder = r.holder
  queue : q.queue = r.queue
  completed : q.completed = r.completed
  session : ∃ entry, q.session = { r.session with checksum := .start, entry := some entry }
  carries : ∃ e, q.session.Carries q.resources e [] [] [] .running ∧ e.input = [] ∧ e.finishing = false

omit [Sink σ] [Deflate.LawfulCompressor κ] in
theorem commit_opened {τ : Type} [Sink τ] (r : Response τ κ) (last : Bool)
    (content : Option Bytes) (headers : Header.Map)
    (entry : Deflate.Entry κ) (engines : Deflate.Pool κ)
    (verdict : r.judge r.head last content = .coded headers entry engines)
    (idle : r.session.entry = none) (buffer : r.session.buffer = none) (size : 64 ≤ r.session.bufferSize)
    (ready : r.resources.engines.Ready) :
    ∃ q, r.Opened headers q ∧ r.commit last content =
      (q, if content.isNone ∧ ¬ last then .writing false none .heading else .compressing (.new last content)) := by
  have acquired := judge_entry r _ last content headers entry engines verdict
  obtain ⟨engine, empty, open_⟩ := Deflate.acquired_at _ _ _ ready acquired
  have session : (r.setHeaders headers).session.start { (r.setHeaders headers).resources with engines } entry =
      ({ r.session with checksum := .start, entry := some entry }, { r.resources with engines }) :=
    Session.start_idle _ _ _ idle
  have carries : ({ r.session with checksum := .start, entry := some entry } : Session κ).Carries
      { r.resources with engines } (engines.engine entry) [] [] [] .running := by
    refine ⟨⟨entry, rfl, rfl⟩, engine, rfl, fun _ => ⟨rfl, rfl⟩, ?_, size⟩
    exact fun b held => absurd (buffer.symm.trans held) nofun
  let q : Response τ κ :=
    { r.setHeaders headers with
      session := { r.session with checksum := .start, entry := some entry }
      resources := { r.resources with engines }
      state := .compressing }
  refine ⟨q, ⟨rfl, rfl, rfl, rfl, rfl, ⟨entry, rfl⟩, engines.engine entry, carries, empty, open_⟩, ?_⟩
  rw [commit, verdict]
  simp only [session]
  split <;> rfl

include reliable bounded

theorem settle_first (r : Response (Logged σ) κ) (last : Bool) (content : Option Bytes)
    (idle : r.session.entry = none) (buffer : r.session.buffer = none) (size : 64 ≤ r.session.bufferSize)
    (quiet : r.queue = []) (here : sound r.sink.sink) (unlogged : r.sink.log = []) (ready : r.resources.engines.Ready)
    (coded : (r.commit last content).1.state = .compressing) :
    ∃ q, settle 0 (r.commit last content).1 (r.commit last content).2 = some (q, .ok ()) ∧
      Takes sound last (content.getD []) r q := by
  unfold commit at coded ⊢
  cases verdict : r.judge r.head last content with
  | plain headers => simp [verdict, pass] at coded
  | coded headers entry engines =>
      have acquired := judge_entry r _ last content headers entry engines verdict
      obtain ⟨engine, empty, open_⟩ := Deflate.acquired_at _ _ _ ready acquired
      have session : (r.setHeaders headers).session.start { (r.setHeaders headers).resources with engines } entry =
          ({ r.session with checksum := .start, entry := some entry }, { r.resources with engines }) :=
        Session.start_idle _ _ _ idle
      simp only [session]
      generalize opened : ({ r.setHeaders headers with
        session := { r.session with checksum := .start, entry := some entry }
        resources := { r.resources with engines }
        state := .compressing } : Response (Logged σ) κ) = q
      have streams : q.Streams sound (engines.engine entry) [] [] .running := by
        subst opened
        refine ⟨rfl, reliable.edits _ _ here, ?_, quiet, ⟨⟨entry, rfl, rfl⟩, engine, rfl, ?_, ?_, size⟩⟩
        · simp [setHeaders, Sink.setHead, unlogged]
        · exact fun _ => ⟨rfl, by simp [setHeaders, Sink.setHead, unlogged, Logged.octets]⟩
        · exact fun b held => absurd (buffer.symm.trans held) nofun
      have completed : q.completed = r.completed := by rw [← opened]; rfl
      split
      · rename_i heading
        obtain ⟨none_given, more⟩ := heading
        obtain ⟨p, settled, takes⟩ := settle_heading sound reliable q _ [] [] streams empty open_
        have nothing : content.getD [] = [] := by simp_all
        rw [nothing, show last = false by simpa using more]
        exact ⟨p, settled, { takes with completed := takes.completed.trans completed }⟩
      · obtain ⟨p, settled, takes⟩ :=
          settle_write sound reliable owed bounded q last content _ [] [] streams empty open_
        exact ⟨p, settled, { takes with completed := takes.completed.trans completed }⟩

theorem dispatch_paused (r : Response (Logged σ) κ) (last : Bool) (content : Option Bytes) (data : Bytes)
    (paused : r.Paused sound data) :
    ∃ q, settle 0 (r.dispatch 0 last content).1 (r.dispatch 0 last content).2 = some (q, .ok ()) ∧
      Takes sound last (data ++ content.getD []) r q := by
  obtain ⟨⟨e, out, streams, empty, open_⟩, free⟩ := paused
  have locked : (r.lock 0).Streams sound e data out .running :=
    ⟨streams.state, streams.sound, streams.partly, streams.quiet, streams.carries⟩
  simp only [dispatch, streams.state, free, Option.isNone_none, if_true]
  obtain ⟨q, settled, takes⟩ := settle_write sound reliable owed bounded (r.lock 0) last content e data out locked empty
    open_
  exact ⟨q, settled, { takes with }⟩

theorem dispatch_first (r : Response (Logged σ) κ) (last : Bool) (content : Option Bytes)
    (state : r.state = .mightCompress) (free : r.holder = none) (quiet : r.queue = []) (idle : r.session.entry = none)
    (buffer : r.session.buffer = none) (size : 64 ≤ r.session.bufferSize) (here : sound r.sink.sink)
    (unlogged : r.sink.log = []) (ready : r.resources.engines.Ready)
    (coded : (r.dispatch 0 last content).1.state = .compressing) :
    ∃ q, settle 0 (r.dispatch 0 last content).1 (r.dispatch 0 last content).2 = some (q, .ok ()) ∧
      Takes sound last (content.getD []) r q := by
  have commits : r.dispatch 0 last content = ({ r with state := .committing }.lock 0).commit last content := by
    simp only [dispatch, state]
    exact acquire_free ({ r with state := .committing } : Response (Logged σ) κ) 0 _ free
  rw [commits] at coded ⊢
  obtain ⟨q, settled, takes⟩ := settle_first sound reliable owed bounded ({ r with state := .committing }.lock 0) last
    content idle buffer size quiet here unlogged ready coded
  exact ⟨q, settled, { takes with }⟩

end Settling

inductive Closes : List Call → Bytes → Prop where
  | write (content : Option Bytes) : Closes [.write true content] (content.getD [])
  | succeeded : Closes [.succeeded] []
  | more (content : Option Bytes) (calls : List Call) (data : Bytes) (closes : Closes calls data) :
    Closes (.write false content :: calls) (content.getD [] ++ data)

section Performing

variable (sound : σ → Prop) (reliable : Sink.Reliable sound) [Deflate.LawfulCompressor κ]

include reliable

theorem perform_paused (r : Response (Logged σ) κ) (calls : List Call) (data total : Bytes)
    (closes : Closes calls total)
    (paused : r.Paused sound data) (completed : r.completed = false) :
    (r.perform calls).2 = List.replicate calls.length (.ok ()) ∧ (r.perform calls).1.Delivered (data ++ total) := by
  obtain ⟨owed, bounded⟩ := Deflate.LawfulCompressor.finite (κ := κ)
  induction closes generalizing r data with
  | write content =>
      obtain ⟨q, settled, takes⟩ := dispatch_paused sound reliable owed bounded r true _ data paused
      have called := call_settled r (.write true content) q (.ok ()) settled
      rw [filter_octets] at takes
      simpa only [perform, called] using ⟨rfl, takes.delivered rfl⟩
  | succeeded =>
      have started : r.start 0 .succeeded = { r with completed := true }.dispatch 0 true none := by
        simp [start, completed]
      have paused' : ({ r with completed := true } : Response (Logged σ) κ).Paused sound data := by
        obtain ⟨⟨e, out, streams, drained⟩, free⟩ := paused
        exact ⟨⟨e, out, { streams with }, drained⟩, free⟩
      obtain ⟨q, settled, takes⟩ := dispatch_paused sound reliable owed bounded _ true none data paused'
      have called := call_settled r .succeeded q (.ok ()) (started ▸ settled)
      simpa only [perform, called] using ⟨rfl, takes.delivered rfl⟩
  | more content calls rest closes ih =>
      obtain ⟨q, settled, takes⟩ := dispatch_paused sound reliable owed bounded r false _ data paused
      have called := call_settled r (.write false content) q (.ok ()) settled
      rw [filter_octets] at takes
      obtain ⟨sent, delivered⟩ := ih q _ (takes.paused rfl) (takes.completed.trans completed)
      simp only [perform, called, sent, ← List.append_assoc]
      exact ⟨rfl, delivered⟩

theorem perform_first (r : Response (Logged σ) κ) (first : Call) (rest : List Call) (data : Bytes)
    (closes : Closes (first :: rest) data) (fresh : r.IsFresh) (size : 64 ≤ r.session.bufferSize)
    (here : sound r.sink.sink) (unlogged : r.sink.log = []) (ready : r.resources.engines.Ready)
    (coded : (r.start 0 first).1.state = .compressing) :
    (r.perform (first :: rest)).2 = List.replicate (rest.length + 1) (.ok ()) ∧
      (r.perform (first :: rest)).1.Delivered data := by
  obtain ⟨owed, bounded⟩ := Deflate.LawfulCompressor.finite (κ := κ)
  obtain ⟨state, completed, free, quiet, idle, buffer⟩ := fresh
  cases closes with
  | write content =>
      obtain ⟨q, settled, takes⟩ :=
        dispatch_first sound reliable owed bounded r true _ state free quiet idle buffer size
        here unlogged ready coded
      have called := call_settled r (.write true content) q (.ok ()) settled
      rw [filter_octets] at takes
      simpa only [perform, called] using ⟨rfl, takes.delivered rfl⟩
  | succeeded =>
      have started : r.start 0 .succeeded = { r with completed := true }.dispatch 0 true none := by
        simp [start, completed]
      rw [started] at coded
      obtain ⟨q, settled, takes⟩ :=
        dispatch_first sound reliable owed bounded { r with completed := true } true none state
        free quiet idle buffer size here unlogged ready coded
      have called := call_settled r .succeeded q (.ok ()) (started ▸ settled)
      simpa only [perform, called] using ⟨rfl, takes.delivered rfl⟩
  | more content calls total closes =>
      obtain ⟨q, settled, takes⟩ :=
        dispatch_first sound reliable owed bounded r false _ state free quiet idle buffer size
        here unlogged ready coded
      have called := call_settled r (.write false content) q (.ok ()) settled
      rw [filter_octets] at takes
      obtain ⟨sent, delivered⟩ := perform_paused sound reliable q rest _ _ closes (takes.paused rfl)
        (takes.completed.trans completed)
      simp only [perform, called, sent]
      exact ⟨rfl, delivered⟩

theorem hands_over_member (r : Response (Logged σ) κ) (first : Call) (rest : List Call) (data : Bytes)
    (closes : Closes (first :: rest) data) (fresh : r.IsFresh) (size : minBufferSize ≤ r.session.bufferSize)
    (here : sound r.sink.sink) (unlogged : r.sink.log = []) (ready : r.resources.engines.Ready)
    (coded : (r.start 0 first).1.state = .compressing) :
    (∀ result ∈ (r.perform (first :: rest)).2, result = .ok ()) ∧
    ∃ (front : List Delivery) (final : Delivery) (stream chunk : Bytes),
      (r.perform (first :: rest)).1.sink.log = front ++ [final] ∧
      (∀ d ∈ front, d.last = false) ∧ final.last = true ∧
      Logged.octets (front ++ [final]) = header ++ stream ++
        littleEndian (Checksum.ofBytes data) ++ littleEndian (UInt32.ofNat data.length) ∧
      Deflate.inflate? stream = some data ∧
      final.content = some (chunk ++
        (littleEndian (Checksum.ofBytes data) ++ littleEndian (UInt32.ofNat data.length))) := by
  obtain ⟨sent, delivered⟩ := perform_first sound reliable r first rest data closes fresh size here unlogged ready coded
  obtain ⟨front, final, chunk, stream, log, partly, last, content, octets, whole⟩ := delivered.log
  have ending : trailer (Checksum.start.add data) =
      littleEndian (Checksum.ofBytes data) ++ littleEndian (UInt32.ofNat data.length) := by
    simp [trailer, Checksum.ofBytes, Checksum.amount, Checksum.add, Checksum.start]
  rw [ending] at content octets
  refine ⟨?_, front, final, stream, chunk, log, partly, last, ?_, whole, content⟩
  · intro result member
    rw [sent] at member
    exact (List.mem_replicate.mp member).2
  · rw [← log, octets]
    simp only [List.append_assoc]

end Performing

def tight : Response (Logged Recorder) Deflate.Encoder :=
  { Response.new ⟨.new .empty, []⟩ ⟨[], 0⟩ ⟨.new 1 6, .standard⟩ with session := .new minBufferSize true }

theorem hands_over_greeting :
    (tight.start 0 (.write false (some [104]))).1.state = .compressing ∧
    ∃ front final stream,
      (tight.perform [.write false (some [104]), .write false none, .write true (some [105])]).1.sink.log =
        front ++ [final] ∧
      Logged.octets (front ++ [final]) = header ++ stream ++
        littleEndian (Checksum.ofBytes [104, 105]) ++ littleEndian 2 ∧
      Deflate.inflate? stream = some [104, 105] := by
  have coded : (tight.start 0 (.write false (some [104]))).1.state = .compressing := by decide +kernel
  have closes : Closes [.write false (some [104]), .write false none, .write true (some [105])] [104, 105] :=
    .more (some [104]) _ _ (.more none _ _ (.write (some [105])))
  obtain ⟨-, front, final, stream, chunk, log, -, -, octets, whole, -⟩ :=
    hands_over_member Recorder.IsOpen recorder_reliable
    tight _ _ _ closes ⟨rfl, rfl, rfl, rfl, rfl, rfl⟩ (Nat.le_refl minBufferSize) ⟨rfl, rfl⟩ rfl
      (Deflate.new_ready 1 6) coded
  exact ⟨coded, front, final, stream, log, octets, whole⟩

end Response

end Gateway.Gzip
