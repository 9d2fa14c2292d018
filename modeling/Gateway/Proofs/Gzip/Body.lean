import Gateway.Proofs.Buffer
import Gateway.Proofs.Deflate.Engine
import Gateway.Proofs.Gzip.Session

set_option autoImplicit false

namespace Gateway.Gzip

variable {κ : Type} [Deflate.Compressor κ]

theorem checksum_add (c : Checksum) (a b : Bytes) : (c.add a).add b = c.add (a ++ b) := by
  simp [Checksum.add, Nat.add_assoc]

-- A session whose engine was handed some data and has put out some octets, of which, behind the
-- header, so many were forwarded.
structure Session.Carries (s : Session κ) (r : Resources κ) (e : Deflate.Engine κ) (data out made : Bytes)
    (stage : Deflate.Stage) : Prop where
  entry : ∃ entry, s.entry = some entry ∧ r.engines.engine entry = e
  engine : e.At data out stage
  checksum : s.checksum = Checksum.start.add data
  unopened : s.buffer = none → out = [] ∧ made = []
  opened (b : Buffer) : s.buffer = some b → 64 ≤ b.capacity ∧ made = header ++ out
  size : 64 ≤ s.bufferSize

namespace Write

structure Under (w : Write) (s : Session κ) (r : Resources κ) (e : Deflate.Engine κ) (data out made : Bytes)
    (stage : Deflate.Stage) : Prop where
  carries : s.Carries r e data out made stage
  closing : e.finishing = true → w.last = true ∧ w.content = none
  content : w.content ≠ some []
  drained : w.content ≠ none → e.input = []

theorem new_under (last : Bool) (content : Option Bytes) (s : Session κ) (r : Resources κ) (e : Deflate.Engine κ)
    (data out made : Bytes) (carries : s.Carries r e data out made .running) (empty : e.input = [])
    (open_ : e.finishing = false) : (Write.new last content).Under s r e data out made .running where
  carries := carries
  closing finishing := by cases open_.symm.trans finishing
  content := by simp [Write.new, Option.filter_eq_some_iff]
  drained _ := empty

-- How much is left to be done for a write: what happens once at most, then the input, then what the
-- compressor owes.
def effort (owed : κ → Nat) (w : Write) (s : Session κ) (e : Deflate.Engine κ) : Nat × Nat × Nat :=
  (w.content.isSome.toNat + s.buffer.isNone.toNat + (!e.finishing).toNat + (!e.finished).toNat,
    e.input.length, owed e.compressor)

def Sooner (a b : Nat × Nat × Nat) : Prop := Prod.Lex (· < ·) (Prod.Lex (· < ·) (· < ·)) a b

theorem sooner_rank (a b : Nat × Nat × Nat) (rank : a.1 < b.1) : Sooner a b := .left _ _ rank

theorem sooner_input (a b : Nat × Nat × Nat) (rank : a.1 ≤ b.1) (input : a.2.1 < b.2.1) : Sooner a b := by
  rcases Nat.lt_or_eq_of_le rank with less | same
  · exact .left _ _ less
  · obtain ⟨a1, a2⟩ := a
    obtain ⟨b1, b2⟩ := b
    obtain rfl : a1 = b1 := same
    exact .right _ (.left _ _ input)

theorem sooner_owed (a b : Nat × Nat × Nat) (rank : a.1 ≤ b.1) (input : a.2.1 ≤ b.2.1) (less : a.2.2 < b.2.2) :
    Sooner a b := by
  rcases Nat.lt_or_eq_of_le input with shorter | same
  · exact sooner_input a b rank shorter
  · rcases Nat.lt_or_eq_of_le rank with lower | level
    · exact .left _ _ lower
    · obtain ⟨a1, a2, a3⟩ := a
      obtain ⟨b1, b2, b3⟩ := b
      obtain rfl : a1 = b1 := level
      obtain rfl : a2 = b2 := same
      exact .right _ (.right _ less)

inductive Outcome (owed : κ → Nat) (w : Write) (s : Session κ) (e : Deflate.Engine κ) (total made : Bytes)
    (p : Progress κ) : Prop where
  | onward (d : Deflate.Engine κ) (data out : Bytes) (stage : Deflate.Stage)
      (action : p.action = .ok (.flush false) ∨ p.action = .ok .idle ∧ p.session.output = [])
      (under : p.write.Under p.session p.resources d data out (made ++ p.session.output) stage)
      (whole : data ++ p.write.content.getD [] = total) (last : p.write.last = w.last)
      (sooner : Sooner (p.write.effort owed p.session d) (w.effort owed s e))
  | taken (d : Deflate.Engine κ) (out : Bytes) (action : p.action = .ok .succeeded) (more : w.last = false)
      (carries : p.session.Carries p.resources d total out made .running) (empty : d.input = [])
      (open_ : d.finishing = false) (content : p.write.content = none)
  | ended (d : Deflate.Engine κ) (front out : Bytes) (action : p.action = .ok (.flush true)) (last : w.last = true)
      (output : p.session.output = front ++ trailer (Checksum.start.add total))
      (forwarded : made ++ front = header ++ out) (here : d.At total out .ended)

structure Opens (s : Session κ) (out made : Bytes) (b : Buffer) : Prop where
  room : 64 ≤ b.capacity
  text : made ++ b.data = header ++ out
  short : b.data.length ≤ headerSize
  cleared : s.buffer ≠ none → b.data = []

theorem open_buffer (s : Session κ) (r : Resources κ) (e : Deflate.Engine κ)
    (data out made : Bytes) (stage : Deflate.Stage)
    (carries : s.Carries r e data out made stage) :
    Opens s out made (openBuffer s r).1 ∧ (openBuffer s r).2.engines = r.engines := by
  unfold openBuffer
  cases buffer : s.buffer with
  | some b =>
      obtain ⟨room, rfl⟩ := carries.opened b buffer
      exact ⟨⟨room, by simp [Buffer.clear], by simp [Buffer.clear], fun _ => rfl⟩, rfl⟩
  | none =>
      obtain ⟨rfl, rfl⟩ := carries.unopened buffer
      obtain ⟨empty, roomy⟩ := BufferPool.acquire_empty r.buffers s.bufferSize
      have grown := Buffer.put_capacity (r.buffers.acquire s.bufferSize).1 header
      have size := carries.size
      refine ⟨⟨by dsimp only; omega, by simp [empty], ?_, fun held => absurd buffer held⟩, rfl⟩
      simp [empty, header, headerSize]

section Concluding

variable (w : Write) (s : Session κ) (r : Resources κ) (d : Deflate.Engine κ) (b : Buffer)

theorem conclude_ended (finished : d.finished = true) (fits : trailerSize ≤ b.free) :
    (w.conclude s r d b).action = .ok (.flush true) ∧
      (w.conclude s r d b).session.output = b.data ++ trailer s.checksum := by
  rw [conclude, if_pos ⟨finished, fits⟩]
  exact ⟨rfl, by simp [Session.output]⟩

theorem conclude_onward (open_ : ¬ (d.finished = true ∧ trailerSize ≤ b.free)) : w.conclude s r d b =
    ⟨w, { s with entry := some ⟨some d⟩, buffer := some b }, r,
      .ok (if b.data.isEmpty then .idle else .flush false)⟩ := by
  rw [conclude, if_neg open_]

variable (owed : κ → Nat) (v : Write) (t : Session κ) (e : Deflate.Engine κ)
variable (data out made : Bytes) (stage : Deflate.Stage)

theorem conclude_outcome (here : d.At data out stage) (checksum : s.checksum = Checksum.start.add data)
    (size : 64 ≤ s.bufferSize) (room : 64 ≤ b.capacity) (text : made ++ b.data = header ++ out)
    (last : w.last = v.last) (empty : w.content = none) (closing : d.finishing = true → w.last = true)
    (sooner : ¬ (d.finished = true ∧ trailerSize ≤ b.free) →
      Sooner (w.effort owed { s with entry := some ⟨some d⟩, buffer := some b } d) (v.effort owed t e)) :
    Outcome owed v t e data made (w.conclude s r d b) := by
  by_cases done : d.finished = true ∧ trailerSize ≤ b.free
  · obtain ⟨finished, fits⟩ := done
    obtain ⟨action, output⟩ := conclude_ended w s r d b finished fits
    have finishing := Deflate.Engine.finished_finishing d data out stage here finished
    rw [checksum] at output
    exact .ended d b.data out action (last ▸ closing finishing) output text (here.finished.mp finished ▸ here)
  · rw [conclude_onward w s r d b done]
    refine .onward d data out stage ?_ ⟨⟨⟨_, rfl, rfl⟩, here, checksum, nofun, ?_, size⟩, ?_, ?_, ?_⟩
      ?_ last (sooner done)
    · cases octets : b.data with
      | nil => exact .inr ⟨rfl, octets⟩
      | cons first rest => exact .inl rfl
    · rintro _ ⟨⟩
      exact ⟨room, text⟩
    · exact fun finishing => ⟨closing finishing, empty⟩
    · simp [empty]
    · exact fun waiting => absurd empty waiting
    · simp [empty]

end Concluding

section Stepping

variable (owed : κ → Nat) (bounded : Deflate.Bounded owed)
variable (w : Write) (s t : Session κ) (r : Resources κ) (e d : Deflate.Engine κ) (b : Buffer)
variable (data out made : Bytes) (stage : Deflate.Stage)

omit [Deflate.Compressor κ] in
theorem call_rank (finishing : d.finishing = e.finishing) (nearer : Deflate.Engine.Nearer owed e d)
    (buffer : t.buffer ≠ none) : (w.effort owed t d).1 ≤ (w.effort owed s e).1 := by
  have opened : t.buffer.isNone = false := by simpa [Option.isSome_iff_ne_none] using buffer
  cases nearer with
  | finished before after =>
      simp [effort, opened, finishing, before, after]
      omega
  | input same shorter => simp [effort, opened, finishing, same]
  | output same input less => simp [effort, opened, finishing, same]

omit [Deflate.Compressor κ] in
theorem call_sooner (finishing : d.finishing = e.finishing) (nearer : Deflate.Engine.Nearer owed e d)
    (buffer : t.buffer ≠ none) : Sooner (w.effort owed t d) (w.effort owed s e) := by
  have rank := call_rank owed w s t e d finishing nearer buffer
  cases nearer with
  | finished before after =>
      have opened : t.buffer.isNone = false := by simpa [Option.isSome_iff_ne_none] using buffer
      refine sooner_rank _ _ ?_
      simp only [effort, opened, finishing, before, after, Bool.not_false, Bool.not_true,
        Bool.toNat_false, Bool.toNat_true]
      omega
  | input same shorter => exact sooner_input _ _ rank shorter
  | output same input less => exact sooner_owed _ _ rank (Nat.le_of_eq (congrArg List.length input)) less

theorem deflate_outcome (v : Write) (e' : Deflate.Engine κ) (checksum : s.checksum = Checksum.start.add data)
    (size : 64 ≤ s.bufferSize) (opens : Opens t out made b) (last : w.last = v.last) (empty : w.content = none)
    (closing : e.finishing = true → w.last = true) (chunk : Bytes)
    (result : e.deflate b.free s.syncFlush = (d, .ok chunk))
    (calls : Deflate.Engine.Calls owed e data out b.free d chunk stage)
    (sooner : ∀ b', Sooner (w.effort owed { s with entry := some ⟨some d⟩, buffer := some b' } d)
      (v.effort owed t e')) :
    Outcome owed v t e' data made (w.deflate s r e b) := by
  have text : made ++ (b.put chunk).data = header ++ (out ++ chunk) := by
    rw [Buffer.put_data, ← List.append_assoc, opens.text, List.append_assoc]
  have room := Nat.le_trans opens.room (Buffer.put_capacity b chunk)
  rw [deflate, result]
  exact conclude_outcome w s r d (b.put chunk) owed v t e' data (out ++ chunk) made stage calls.here checksum size room
    text last empty (calls.finishing ▸ closing) fun _ => sooner (b.put chunk)

-- The trailer did not fit behind the output of the step before.
theorem trailer_outcome (under : w.Under s r e data out made stage) (opens : Opens s out made b)
    (finished : e.finished = true) : Outcome owed w s e (data ++ w.content.getD []) made (w.conclude s r e b) := by
  obtain ⟨carries, closing, -, -⟩ := under
  have short := opens.short
  have room := opens.room
  simp only [headerSize] at short
  have fits : trailerSize ≤ b.free := by simp only [Buffer.free, trailerSize]; omega
  obtain ⟨last, empty⟩ := closing (Deflate.Engine.finished_finishing e data out stage carries.engine finished)
  rw [empty, Option.getD_none, List.append_nil]
  exact conclude_outcome w s r e b owed w s e data out made stage carries.engine carries.checksum carries.size room
    opens.text rfl empty (fun _ => last) fun open_ => absurd ⟨finished, fits⟩ open_

variable [Deflate.ProgressiveCompressor κ]

include bounded

theorem handed_outcome (under : w.Under s r e data out made stage) (opens : Opens s out made b) (free : 0 < b.free)
    (drained : e.input = []) (octets : Bytes) (content : w.content = some octets) :
    Outcome owed w s e (data ++ octets) made
      (deflate { w with content := none } { s with checksum := s.checksum.add octets } r (e.setInput octets) b) := by
  obtain ⟨carries, closing, nonempty, -⟩ := under
  have open_ : e.finishing = false := by
    refine Bool.eq_false_iff.mpr fun finishing => ?_
    simp [(closing finishing).2] at content
  have given : octets ≠ [] := by
    rintro rfl
    exact nonempty content
  have handed := Deflate.Engine.set_input_at e data out octets stage carries.engine drained open_
  obtain ⟨d, chunk, result, calls⟩ := Deflate.Engine.deflate_fed owed bounded (e.setInput octets) _ out stage
    b.free s.syncFlush handed open_ given free
  refine deflate_outcome owed _ { s with checksum := s.checksum.add octets } s r _ d b _ out made .running w e
    ?_ carries.size opens rfl rfl (fun finishing => absurd (open_.symm.trans finishing) nofun) chunk result calls ?_
  · rw [carries.checksum]
    exact checksum_add _ data octets
  · intro b'
    refine sooner_rank _ _ (Nat.lt_of_le_of_lt (call_rank owed _ s _ _ d calls.finishing calls.nearer nofun) ?_)
    simp [effort, content, Deflate.Engine.setInput]

theorem closing_outcome (under : w.Under s r e data out made stage) (opens : Opens s out made b) (free : 0 < b.free)
    (unfinished : e.finished = false) (drained : e.input = []) (content : w.content = none) (last : w.last = true) :
    Outcome owed w s e data made (w.deflate s r e.finish b) := by
  have carries := under.carries
  have asked := Deflate.Engine.finish_at e data out stage carries.engine drained
  obtain ⟨d, chunk, stage', result, calls⟩ := Deflate.Engine.deflate_closing owed bounded e.finish data out stage
    b.free s.syncFlush asked rfl unfinished free
  refine deflate_outcome owed w s s r e.finish d b data out made stage' w e carries.checksum carries.size opens
    rfl content (fun _ => last) chunk result calls ?_
  intro b'
  cases finishing : e.finishing with
  | true =>
      have same : e.finish = e := by simp [Deflate.Engine.finish, ← finishing]
      rw [same] at calls
      exact call_sooner owed w s _ e d calls.finishing calls.nearer nofun
  | false =>
      refine sooner_rank _ _ (Nat.lt_of_le_of_lt (call_rank owed w s _ _ d calls.finishing calls.nearer nofun) ?_)
      simp [effort, Deflate.Engine.finish, finishing]

omit [Deflate.ProgressiveCompressor κ] bounded in
theorem paused_outcome (under : w.Under s r e data out made stage) (opens : Opens s out made b) (drained : e.input = [])
    (content : w.content = none) (more : w.last = false) :
    Outcome owed w s e data made
      ⟨w, { s with entry := some ⟨some e⟩, buffer := some b }, r,
        .ok (if b.data.isEmpty then .succeeded else .flush false)⟩ := by
  obtain ⟨carries, closing, nonempty, waiting⟩ := under
  have open_ : e.finishing = false := by
    refine Bool.eq_false_iff.mpr fun finishing => ?_
    simp [(closing finishing).1] at more
  obtain rfl := carries.engine.running open_
  have kept (forwarded : Bytes) (text : forwarded = header ++ out) :
      ({ s with entry := some ⟨some e⟩, buffer := some b } : Session κ).Carries r e data out forwarded .running :=
    ⟨⟨_, rfl, rfl⟩, carries.engine, carries.checksum, nofun, by rintro _ ⟨⟩; exact ⟨opens.room, text⟩,
      carries.size⟩
  cases octets : b.data with
  | nil =>
      have text := opens.text
      rw [octets, List.append_nil] at text
      exact .taken e out rfl more (kept made text) drained open_ content
  | cons first rest =>
      have unopened : s.buffer = none := by
        refine Decidable.byContradiction fun held => ?_
        simp [opens.cleared (by simpa using held)] at octets
      refine .onward e data out .running (.inl rfl) ⟨kept _ (octets ▸ opens.text), closing, nonempty, waiting⟩ ?_ rfl ?_
      · simp [content]
      · refine sooner_rank _ _ ?_
        simp [effort, unopened, content]

theorem pending_outcome (under : w.Under s r e data out made stage) (opens : Opens s out made b) (free : 0 < b.free)
    (pending : e.input ≠ []) : Outcome owed w s e (data ++ w.content.getD []) made (w.deflate s r e b) := by
  obtain ⟨carries, closing, -, waiting⟩ := under
  have open_ : e.finishing = false := Bool.eq_false_iff.mpr fun finishing => pending (carries.engine.drained finishing)
  have empty : w.content = none := Decidable.byContradiction fun content => pending (waiting content)
  obtain ⟨d, chunk, result, calls⟩ := Deflate.Engine.deflate_fed owed bounded e data out stage b.free s.syncFlush
    carries.engine open_ pending free
  rw [empty, Option.getD_none, List.append_nil]
  exact deflate_outcome owed w s s r e d b data out made .running w e carries.checksum carries.size opens rfl empty
    (fun finishing => (closing finishing).1) chunk result calls
    fun _ => call_sooner owed w s _ e d calls.finishing calls.nearer nofun

theorem advance_outcome (under : w.Under s r e data out made stage) (opens : Opens s out made b) :
    Outcome owed w s e (data ++ w.content.getD []) made (w.advance s r e b) := by
  have short := opens.short
  have room := opens.room
  simp only [headerSize] at short
  have free : 0 < b.free := by simp only [Buffer.free]; omega
  rw [advance]
  by_cases finished : e.finished = true
  · rw [if_pos finished]
    exact trailer_outcome owed w s r e b data out made stage under opens finished
  · rw [if_neg finished]
    by_cases drained : e.input = []
    · rw [if_pos (by simpa [Deflate.Engine.needsInput] using drained)]
      cases content : w.content with
      | some octets =>
          exact handed_outcome owed bounded w s r e b data out made stage under opens
            free drained octets content
      | none =>
          rw [Option.getD_none, List.append_nil]
          by_cases last : w.last = true
          · simp only [if_pos last]
            exact closing_outcome owed bounded w s r e b data out made stage under opens free (by simpa using finished)
              drained content last
          · simp only [if_neg last]
            exact paused_outcome owed w s r e b data out made stage under opens drained content (by simpa using last)
    · rw [if_neg (by simpa [Deflate.Engine.needsInput] using drained)]
      exact pending_outcome owed bounded w s r e b data out made stage under opens free drained

theorem step_outcome (under : w.Under s r e data out made stage) :
    Outcome owed w s e (data ++ w.content.getD []) made (w.step s r) := by
  obtain ⟨entry, held, rfl⟩ := under.carries.entry
  obtain ⟨opens, engines⟩ := open_buffer s r _ data out made stage under.carries
  have step : w.step s r = w.advance s (openBuffer s r).2 (r.engines.engine entry) (openBuffer s r).1 := by
    simp only [step, held]
  rw [step]
  have carries : s.Carries (openBuffer s r).2 (r.engines.engine entry) data out made stage :=
    { under.carries with entry := ⟨entry, held, by rw [engines]⟩ }
  exact advance_outcome owed bounded w s _ _ _ data out made stage { under with carries } opens

end Stepping

end Write

end Gateway.Gzip
