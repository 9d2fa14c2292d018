import Gateway.Gzip.Stream
import Gateway.Proofs.Deflate.Encoder
import Gateway.Proofs.Gzip.Working

set_option autoImplicit false

namespace Gateway.Gzip

variable {κ : Type}

def Session.room (s : Session κ) (r : Resources κ) : Nat :=
  match s.buffer with
  | some b => b.capacity
  | none => (r.buffers.acquire s.bufferSize).1.capacity

def Session.lead (s : Session κ) : Bytes := if s.buffer.isNone then header else []

-- What a step leaves in its buffer. Only the step that ends the body puts the trailer behind it.
structure Progress.Fills (p : Progress κ) (text : Bytes) (room : Nat) : Prop where
  kept : ∃ b, p.session.buffer = some b ∧ b.capacity = room
  onward : p.action ≠ .ok (.flush true) → p.session.output = text
  ended : p.action = .ok (.flush true) → p.session.output = text ++ trailer p.session.checksum
  flushed (last : Bool) : p.action = .ok (.flush last) → 1 ≤ p.session.output.length ∧ p.session.output.length ≤ room

namespace Write

variable [Deflate.Compressor κ]

def drawn (w : Write) (s : Session κ) (r : Resources κ) : Bytes :=
  match s.entry.bind fun entry => w.called? (r.engines.engine entry) with
  | some e => (e.deflate (openBuffer s r).1.free s.syncFlush).2.toOption.getD []
  | none => []

omit [Deflate.Compressor κ] in
theorem open_buffer_fills (s : Session κ) (r : Resources κ) (size : 64 ≤ s.bufferSize) :
    (openBuffer s r).1.data = s.lead ∧ (openBuffer s r).1.capacity = s.room r := by
  rw [openBuffer, Session.lead, Session.room]
  cases s.buffer with
  | some b => exact ⟨rfl, rfl⟩
  | none =>
      obtain ⟨empty, roomy⟩ := BufferPool.acquire_empty r.buffers s.bufferSize
      dsimp only
      refine ⟨by rw [Buffer.put_data, empty]; rfl, Buffer.put_fits _ _ ?_⟩
      rw [empty, show header.length = 10 from rfl]
      simp only [List.length_nil]
      omega

theorem conclude_fills (w : Write) (s : Session κ) (r : Resources κ) (e : Deflate.Engine κ) (b : Buffer)
    (within : b.data.length ≤ b.capacity) : (w.conclude s r e b).Fills b.data b.capacity := by
  rw [conclude]
  by_cases fits : e.finished ∧ trailerSize ≤ b.free
  · rw [if_pos fits]
    have size (c : Checksum) : (trailer c).length = 8 := rfl
    have room : b.data.length + 8 ≤ b.capacity := by
      have free := fits.2
      simp only [trailerSize, Buffer.free] at free
      omega
    refine ⟨⟨b.put (trailer s.checksum), rfl, Buffer.put_fits b _ room⟩, fun going => (going rfl).elim,
      fun _ => rfl, ?_⟩
    intro last flushed
    simp only [Session.releaseEntry, Session.output, Buffer.put_data, List.length_append, size]
    omega
  · rw [if_neg fits]
    cases octets : b.data with
    | nil => exact ⟨⟨b, rfl, rfl⟩, fun _ => octets, by simp, by simp⟩
    | cons first rest =>
        rw [octets] at within
        refine ⟨⟨b, rfl, rfl⟩, fun _ => octets, by simp, fun _ _ => ?_⟩
        exact ⟨by simp [Session.output, octets], by simpa [Session.output, octets] using within⟩

theorem deflate_fills (w : Write) (s : Session κ) (r : Resources κ) (e d : Deflate.Engine κ)
    (b : Buffer) (chunk : Bytes)
    (result : e.deflate b.free s.syncFlush = (d, .ok chunk)) (within : b.data.length ≤ b.capacity)
    (fits : chunk.length ≤ b.free) :
    (w.deflate s r e b).Fills (b.data ++ chunk) b.capacity := by
  have room : b.data.length + chunk.length ≤ b.capacity := by
    simp only [Buffer.free] at fits
    omega
  have within' : (b.put chunk).data.length ≤ (b.put chunk).capacity := by
    rw [Buffer.put_data, List.length_append]
    exact Buffer.put_holds b chunk
  have filled := conclude_fills w s r d (b.put chunk) within'
  rw [Buffer.put_data, Buffer.put_fits b chunk room] at filled
  rw [deflate, result]
  exact filled

theorem called_at (w : Write) (s : Session κ) (r : Resources κ) (e d : Deflate.Engine κ) (data out made : Bytes)
    (stage : Deflate.Stage) (under : w.Under s r e data out made stage) (called : w.called? e = some d) :
    (∃ total, d.At total out stage) ∧ (d.input ≠ [] ∨ d.finishing = true) ∧ d.finished = false := by
  obtain ⟨carries, closing, nonempty, -⟩ := under
  have here := carries.engine
  unfold called? at called
  by_cases finished : e.finished = true
  · rw [if_pos finished] at called
    cases called
  · rw [if_neg finished] at called
    have unfinished : e.finished = false := by simpa using finished
    by_cases needed : e.needsInput = true
    · rw [if_pos needed] at called
      have drained : e.input = [] := by simpa [Deflate.Engine.needsInput] using needed
      cases content : w.content with
      | some octets =>
          simp only [content] at called
          obtain rfl := Option.some.inj called
          have open_ : e.finishing = false := Bool.eq_false_iff.mpr fun finishing => by
            simp [(closing finishing).2] at content
          refine ⟨⟨_, Deflate.Engine.set_input_at e data out octets stage here drained open_⟩, .inl ?_, unfinished⟩
          rintro rfl
          exact nonempty content
      | none =>
          by_cases last : w.last = true
          · simp only [content, if_pos last] at called
            obtain rfl := Option.some.inj called
            exact ⟨⟨_, Deflate.Engine.finish_at e data out stage here drained⟩, .inr rfl, unfinished⟩
          · simp [content, if_neg last] at called
    · rw [if_neg needed] at called
      obtain rfl := Option.some.inj called
      exact ⟨⟨_, here⟩, .inl (by simpa [Deflate.Engine.needsInput] using needed), unfinished⟩

omit [Deflate.Compressor κ] in
theorem paused_fills (w : Write) (s : Session κ) (r : Resources κ) (e : Deflate.Engine κ) (b : Buffer)
    (within : b.data.length ≤ b.capacity) :
    Progress.Fills ⟨w, { s with entry := some ⟨some e⟩, buffer := some b }, r,
      .ok (if b.data.isEmpty then .succeeded else .flush false)⟩ b.data b.capacity := by
  refine ⟨⟨b, rfl, rfl⟩, fun _ => rfl, ?_, ?_⟩
  · cases b.data.isEmpty <;> nofun
  · intro last flushed
    cases octets : b.data with
    | nil => simp [octets] at flushed
    | cons first rest =>
        rw [octets] at within
        exact ⟨by simp [Session.output, octets], by simpa [Session.output, octets] using within⟩

theorem step_fills [Deflate.ProgressiveCompressor κ] (w : Write) (s : Session κ)
    (r : Resources κ) (e : Deflate.Engine κ)
    (data out made : Bytes) (stage : Deflate.Stage) (under : w.Under s r e data out made stage) :
    (w.step s r).Fills (s.lead ++ w.drawn s r) (s.room r) := by
  obtain ⟨entry, held, rfl⟩ := under.carries.entry
  obtain ⟨opens, -⟩ := open_buffer s r _ data out made stage under.carries
  obtain ⟨lead, room⟩ := open_buffer_fills s r under.carries.size
  rw [← lead, ← room]
  have short := opens.short
  have roomy := opens.room
  simp only [headerSize] at short
  have within : (openBuffer s r).1.data.length ≤ (openBuffer s r).1.capacity := by omega
  have free : 0 < (openBuffer s r).1.free := by simp only [Buffer.free]; omega
  have step : w.step s r = w.advance s (openBuffer s r).2 (r.engines.engine entry) (openBuffer s r).1 := by
    simp only [step, held]
  rw [step, drawn, held, Option.bind_some]
  rcases advance_cases w s (openBuffer s r).2 (r.engines.engine entry) (openBuffer s r).1 with
    ⟨concluded, idle⟩ | ⟨v, c, d, fed, called⟩ | ⟨paused, idle⟩
  · rw [concluded, idle, List.append_nil]
    exact conclude_fills w s _ _ _ within
  · obtain ⟨⟨total, here⟩, asked, unfinished⟩ := called_at w s r _ d data out made stage under called
    obtain ⟨d', chunk, result, fits⟩ :=
      Deflate.Engine.deflate_fits d total out stage (openBuffer s r).1.free s.syncFlush here
      asked unfinished free
    rw [fed, called]
    dsimp only
    rw [result]
    exact deflate_fills v { s with checksum := c } _ d d' _ chunk result within fits
  · rw [paused, idle, List.append_nil]
    exact paused_fills w s _ _ _ within

end Write

namespace Stream

variable [Deflate.Compressor κ]

def walk (s : Stream κ) : Nat → Stream κ
  | 0 => s
  | n + 1 => s.step.1.walk n

def room (s : Stream κ) : Nat := s.session.room s.resources

def next (s : Stream κ) : Progress κ := s.write.step s.session s.resources

def text (s : Stream κ) : Bytes := s.session.lead ++ s.write.drawn s.session s.resources

def GoesOn (s : Stream κ) : Prop := s.step.2 = .ok .idle ∨ s.step.2 = .ok (.flush false)

structure Drained (s : Stream κ) : Prop where
  content : s.write.content = none
  input : ∃ entry, s.session.entry = some entry ∧ (s.resources.engines.engine entry).needsInput = true

structure Loops (s : Stream κ) (n : Nat) : Prop where
  onward (k : Nat) (before : k < n) : (s.walk k).GoesOn
  ended : (s.walk n).step.2 = .ok (if s.write.last then .flush true else .succeeded)
  fills (k : Nat) (within : k ≤ n) : (s.walk k).next.Fills (s.walk k).text s.room
  drained (more : s.write.last = false) : (s.walk (n + 1)).Drained

-- A session that was started, perhaps more than once, and took writes that were stepped to their end.
-- Meanwhile others use the pools.
inductive Reached : Stream κ → Prop where
  | started (bufferSize : Nat) (syncFlush : Bool) (resources : Resources κ) (s : Stream κ)
      (size : minBufferSize ≤ bufferSize)
      (ready : resources.engines.Ready)
        (begun : (new (.new bufferSize syncFlush) resources).begin? = some s) : Reached s
  | again (s t : Stream κ) (before : Reached s) (begun : s.begin? = some t) : Reached t
  | meanwhile (s : Stream κ) (resources : Resources κ) (before : Reached s) (ready : resources.engines.Ready)
      (level : resources.engines.level = s.resources.engines.level) : Reached { s with resources }
  | wrote (s t : Stream κ) (last : Bool) (content : Option Bytes) (actions : List Action) (before : Reached s)
      (run : ({ s with write := .new last content } : Stream κ).run = some (t, actions)) : Reached t

theorem step_next (s : Stream κ) : ∃ forwarded ended,
    s.step = (⟨s.next.session, s.next.resources, s.next.write, forwarded, ended⟩, s.next.action) := by
  rw [step, ← next]
  generalize s.next = p
  obtain ⟨w, t, r, action⟩ := p
  rcases action with reason | (last | _ | _) <;> exact ⟨_, _, rfl⟩

section Looping

variable (s : Stream κ)

theorem loops_ended (fills : s.next.Fills s.text s.room)
    (action : s.next.action = .ok (if s.write.last then .flush true else .succeeded))
    (drained : s.write.last = false → s.step.1.Drained) : s.Loops 0 := by
  obtain ⟨forwarded, ended, step⟩ := s.step_next
  refine ⟨fun k before => absurd before (Nat.not_lt_zero k), by rw [walk, step]; exact action,
    fun k within => ?_, drained⟩
  obtain rfl : k = 0 := by omega
  exact fills

theorem loops_onward (n : Nat) (fills : s.next.Fills s.text s.room) (action : s.GoesOn)
    (last : s.next.write.last = s.write.last) (rest : s.step.1.Loops n) : s.Loops (n + 1) := by
  obtain ⟨forwarded, ended, step⟩ := s.step_next
  have same : s.step.1.write.last = s.write.last := by rw [step]; exact last
  have room : s.step.1.room = s.room := by
    obtain ⟨b, held, capacity⟩ := fills.kept
    rw [step, ← capacity]
    simp only [Stream.room, Session.room, held]
  refine ⟨fun k before => ?_, same ▸ rest.ended, fun k within => ?_, fun more => rest.drained (same.trans more)⟩
  · cases k with
    | zero => exact action
    | succ k => exact rest.onward k (by omega)
  · cases k with
    | zero => exact fills
    | succ k => exact room ▸ rest.fills k (by omega)

theorem run_onward (done : List Action) (action : s.GoesOn) : ∃ more, s.runSteps done = s.step.1.runSteps more := by
  rw [GoesOn] at action
  rw [runSteps]
  generalize s.step = p at action ⊢
  obtain ⟨t, result⟩ := p
  rcases action with idle | flushed
  · obtain rfl : result = .ok .idle := idle
    exact ⟨_, rfl⟩
  · obtain rfl : result = .ok (.flush false) := flushed
    exact ⟨_, rfl⟩

theorem run_ended (done : List Action) (last : Bool)
    (action : s.step.2 = .ok (if last then .flush true else .succeeded)) :
    ∃ all, s.runSteps done = some (s.step.1, all) := by
  rw [runSteps]
  generalize s.step = p at action ⊢
  obtain ⟨t, result⟩ := p
  obtain rfl : result = .ok (if last then .flush true else .succeeded) := action
  cases last <;> exact ⟨_, rfl⟩

theorem loops_run (n : Nat) (done : List Action) (last : Bool) (onward : ∀ k < n, (s.walk k).GoesOn)
    (ended : (s.walk n).step.2 = .ok (if last then .flush true else .succeeded)) :
    ∃ all, s.runSteps done = some (s.walk (n + 1), all) := by
  induction n generalizing s done with
  | zero => exact s.run_ended done last ended
  | succ n ih =>
      obtain ⟨more, same⟩ := s.run_onward done (onward 0 (by omega))
      rw [same]
      exact ih s.step.1 more (fun k before => onward (k + 1) (by omega)) ended

end Looping

end Stream

theorem Session.room_size [Deflate.Compressor κ] (s : Session κ) (r : Resources κ)
    (e : Deflate.Engine κ) (data out made : Bytes)
    (stage : Deflate.Stage) (carries : s.Carries r e data out made stage) : 64 ≤ s.room r := by
  cases held : s.buffer with
  | some b => simpa only [room, held] using (carries.opened b held).1
  | none =>
      have roomy := (BufferPool.acquire_empty r.buffers s.bufferSize).2
      simpa only [room, held] using Nat.le_trans carries.size roomy

namespace Stream

variable [Deflate.Compressor κ]

structure Stands (s : Stream κ) : Prop where
  ready : s.resources.engines.Ready
  size : 64 ≤ s.session.bufferSize
  buffer (b : Buffer) : s.session.buffer = some b → 64 ≤ b.capacity
  pauses : s.session.entry ≠ none → s.session.Pauses s.resources

theorem next_ready (s : Stream κ) (ready : s.resources.engines.Ready) : s.next.resources.engines.Ready := by
  rcases (Write.step_retains s.write s.session s.resources).engines with kept | ⟨old, released⟩
  · exact kept ▸ ready
  · exact released ▸ Deflate.release_ready _ old ready

section Walking

variable [Deflate.ProgressiveCompressor κ] (owed : κ → Nat) (bounded : Deflate.Bounded owed)

include bounded

-- By the effort that each step takes away from.
theorem walk_loops (s : Stream κ) (e : Deflate.Engine κ) (data out made : Bytes) (stage : Deflate.Stage)
    (under : s.write.Under s.session s.resources e data out made stage) (ready : s.resources.engines.Ready) :
    ∃ n, s.Loops n ∧ (s.walk (n + 1)).Stands := by
  have outcome := Write.step_outcome owed bounded s.write s.session s.resources e data out made stage under
  have fills : s.next.Fills s.text s.room := Write.step_fills s.write s.session s.resources e data out made stage under
  have ready' := s.next_ready ready
  obtain ⟨forwarded, ended, step⟩ := s.step_next
  have same : s.step.1 = ⟨s.next.session, s.next.resources, s.next.write, forwarded, ended⟩ := congrArg Prod.fst step
  rw [← next] at outcome
  cases outcome with
  | onward d data' out' stage' action under' whole last sooner =>
      have goes : s.GoesOn := by
        rw [GoesOn, step]
        exact action.elim .inr fun idle => .inl idle.1
      obtain ⟨n, loops, stands⟩ := walk_loops s.step.1 d data' out' (made ++ s.next.session.output) stage'
        (by rw [same]; exact under') (by rw [same]; exact ready')
      exact ⟨n + 1, s.loops_onward n fills goes last loops, stands⟩
  | taken d out' action more carries empty open_ content =>
      refine ⟨0, s.loops_ended fills (by rw [more]; exact action) fun _ => ?_, ?_⟩
      · obtain ⟨entry, held, rfl⟩ := carries.entry
        rw [same]
        exact ⟨content, entry, held, by simp [Deflate.Engine.needsInput, empty]⟩
      · rw [walk, walk, same]
        exact ⟨ready', carries.size, fun b held => (carries.opened b held).1,
          fun _ => ⟨d, _, out', made, carries, empty, open_⟩⟩
  | ended d front out' action last output forwarded' here =>
      have active : s.session.entry.isSome := by
        obtain ⟨entry, held, -⟩ := under.carries.entry
        simp [held]
      have returned : s.next.session.entry = none := by
        have kept := Write.step_keeps_entry s.write s.session s.resources active
        rw [← next, Write.KeepsEntry, action] at kept
        exact kept
      refine ⟨0, s.loops_ended fills (by rw [last]; exact action) fun more => (by cases last.symm.trans more), ?_⟩
      rw [walk, walk, same]
      refine ⟨ready', ?_, fun b held => ?_, fun held => absurd returned held⟩
      · exact (Write.step_retains s.write s.session s.resources).bufferSize ▸ under.carries.size
      · obtain ⟨b', held', capacity⟩ := fills.kept
        obtain rfl : b' = b := Option.some.inj (held'.symm.trans held)
        rw [capacity]
        exact Session.room_size s.session s.resources e data out made stage under.carries
termination_by s.write.effort owed s.session e
decreasing_by
  rw [same]
  exact sooner

end Walking

theorem begin_stands (s t : Stream κ) (begun : s.begin? = some t) (ready : s.resources.engines.Ready)
    (size : 64 ≤ s.session.bufferSize) (buffer : ∀ b, s.session.buffer = some b → 64 ≤ b.capacity) : t.Stands := by
  rw [begin?] at begun
  cases acquired : s.resources.engines.acquire? with
  | none => simp [acquired] at begun
  | some given =>
      obtain ⟨entry, engines⟩ := given
      obtain ⟨ready', -⟩ := Deflate.acquire_ready _ _ entry ready acquired
      obtain ⟨here, empty, open_⟩ := Deflate.acquired_at _ _ entry ready acquired
      simp only [acquired] at begun
      obtain rfl := Option.some.inj begun
      have session := Session.start_session s.session { s.resources with engines } entry
      have returned := Session.start_engines s.session { s.resources with engines } entry
      generalize s.session.start { s.resources with engines } entry = p at session returned
      obtain ⟨started, resources⟩ := p
      obtain rfl : started = { s.session with checksum := .start, entry := some entry } := session
      obtain ⟨same, ready''⟩ : resources.engines.engine entry = engines.engine entry ∧ resources.engines.Ready := by
        rcases returned with kept | ⟨old, released⟩
        · exact ⟨congrArg (·.engine entry) kept, kept ▸ ready'⟩
        · exact ⟨congrArg (·.engine entry) released, released ▸ Deflate.release_ready engines old ready'⟩
      -- A buffer that is still held counts as one whose header went out.
      refine ⟨ready'', size, buffer,
        fun _ => ⟨_, [], [], if s.session.buffer.isNone then [] else header, ?_, empty, open_⟩⟩
      refine ⟨⟨entry, rfl, same⟩, here, rfl, fun unopened => ⟨rfl, ?_⟩, fun b held => ⟨buffer b held, ?_⟩, size⟩
      · simp [show s.session.buffer = none from unopened]
      · simp [show s.session.buffer = some b from held]

theorem run_idle (s t : Stream κ) (idle : s.session.entry = none) (actions : List Action)
    (run : s.run = some (t, actions)) :
    t.session = (s.session.releaseBuffer s.resources).1 ∧ t.resources = (s.session.releaseBuffer s.resources).2 := by
  have taken : s.next =
      ⟨s.write, (s.session.releaseBuffer s.resources).1, (s.session.releaseBuffer s.resources).2, .ok .succeeded⟩ := by
    simp only [next, Write.step, idle]
  obtain ⟨forwarded, ended, step⟩ := s.step_next
  rw [taken] at step
  obtain ⟨all, steps⟩ := s.run_ended [] false (by rw [step]; rfl)
  rw [Stream.run, steps, step] at run
  cases run
  exact ⟨rfl, rfl⟩

theorem idle_stands (s t : Stream κ) (stands : s.Stands) (idle : s.session.entry = none) (actions : List Action)
    (run : s.run = some (t, actions)) : t.Stands := by
  obtain ⟨session, resources⟩ := run_idle s t idle actions run
  have entry : t.session.entry = none := by rw [session, Session.release_buffer_entry, idle]
  have buffer : t.session.buffer = none := by rw [session, Session.release_buffer_buffer]
  refine ⟨?_, ?_, fun b held => (by cases buffer.symm.trans held), fun active => absurd entry active⟩
  · rw [resources, Session.releaseBuffer]
    cases s.session.buffer <;> exact stands.ready
  · rw [session, Session.releaseBuffer]
    cases s.session.buffer <;> exact stands.size

section Reaching

variable [Deflate.ProgressiveCompressor κ]

theorem write_loops (s : Stream κ) (stands : s.Stands) (active : s.session.entry ≠ none) (last : Bool)
    (content : Option Bytes) :
    let t : Stream κ := { s with write := .new last content }
    ∃ n actions, t.Loops n ∧ t.run = some (t.walk (n + 1), actions) ∧ (t.walk (n + 1)).Stands := by
  intro t
  obtain ⟨owed, bounded⟩ := Deflate.ProgressiveCompressor.finite (κ := κ)
  obtain ⟨e, data, out, made, carries, empty, open_⟩ := stands.pauses active
  have under := Write.new_under last content _ _ e data out made carries empty open_
  obtain ⟨n, loops, stands'⟩ := walk_loops owed bounded t e data out made .running under stands.ready
  obtain ⟨all, steps⟩ := t.loops_run n [] last loops.onward loops.ended
  exact ⟨n, all.reverse, loops, by rw [run, steps]; rfl, stands'⟩

theorem reached_stands (s : Stream κ) (reached : s.Reached) : s.Stands := by
  induction reached with
  | started bufferSize syncFlush resources s size ready begun => exact begin_stands _ s begun ready size nofun
  | again s t before begun stands => exact begin_stands s t begun stands.ready stands.size stands.buffer
  | meanwhile s resources before ready level stands =>
      refine ⟨ready, stands.size, stands.buffer, fun active => ?_⟩
      obtain ⟨e, data, out, made, carries, empty, open_⟩ := stands.pauses active
      obtain ⟨entry, held, given⟩ := carries.entry
      have same : resources.engines.engine entry = e := by
        rw [← given, Deflate.Pool.engine, level]
        rfl
      exact ⟨e, data, out, made, { carries with entry := ⟨entry, held, same⟩ }, empty, open_⟩
  | wrote s t last content actions before run stands =>
      by_cases idle : s.session.entry = none
      · have stands' : Stands { s with write := .new last content } :=
          ⟨stands.ready, stands.size, stands.buffer, stands.pauses⟩
        exact idle_stands _ t stands' idle actions run
      · obtain ⟨n, actions', loops, same, stands'⟩ := write_loops s stands idle last content
        rw [same] at run
        cases run
        exact stands'

theorem loop_ends (s : Stream κ) (reached : s.Reached) (active : s.session.isActive = true) (last : Bool)
    (content : Option Bytes) :
    let t : Stream κ := { s with write := .new last content }
    ∃ n actions, t.Loops n ∧ t.run = some (t.walk (n + 1), actions) := by
  intro t
  have held : s.session.entry ≠ none := Option.isSome_iff_ne_none.mp active
  obtain ⟨n, actions, loops, same, -⟩ := write_loops s (reached_stands s reached) held last content
  exact ⟨n, actions, loops, same⟩

end Reaching

def opened : Stream Deflate.Encoder :=
  { session := ⟨.start, some ⟨none⟩, none, 64, false⟩
    resources := ⟨⟨1, 6, [], 1⟩, .standard⟩
    write := .new false none, forwarded := [], ended := false }

theorem loop_ends_opened :
    opened.Reached ∧ opened.session.isActive = true ∧
    ∃ n actions, Loops { opened with write := .new true (some [104, 105]) } n ∧
      run { opened with write := .new true (some [104, 105]) } =
        some (walk { opened with write := .new true (some [104, 105]) } (n + 1), actions) := by
  have reached : opened.Reached :=
    .started 64 false ⟨.new 1 6, .standard⟩ opened (by decide) (Deflate.new_ready 1 6) rfl
  exact ⟨reached, rfl, loop_ends opened reached rfl true (some [104, 105])⟩

end Stream

end Gateway.Gzip
