import Gateway.Proofs.Deflate.Prompt
import Gateway.Proofs.Gzip.Delivery

set_option autoImplicit false

namespace Gateway.Gzip

variable {κ : Type} [Deflate.Compressor κ]

def IsCurrent (made data : Bytes) : Prop := Deflate.Reads (made.drop headerSize) data

theorem header_current (out data : Bytes) : IsCurrent (header ++ out) data ↔ Deflate.Reads out data := by
  rw [IsCurrent, show headerSize = header.length from rfl, List.drop_left]

theorem put_unused (b : Buffer) (chunk : Bytes) (room : chunk.length ≤ b.free) (positive : 0 < b.free)
    (left : (b.put chunk).data.length < (b.put chunk).capacity) : chunk.length < b.free := by
  simp only [Buffer.free] at room positive ⊢
  simp only [Buffer.put, List.length_append] at left
  rw [if_pos (by omega)] at left
  omega

namespace Write

structure Flushed (p : Progress κ) (made total : Bytes) : Prop where
  action : p.action ≠ .ok .succeeded
  content : p.write.content = none
  opened : p.session.buffer ≠ none
  current (b : Buffer) : p.session.buffer = some b → b.data.length < b.capacity → IsCurrent (made ++ b.data) total

inductive Prompts (w : Write) (s : Session κ) (p : Progress κ) (made total : Bytes) : Prop where
  | onward (flushed : Flushed p made total)
  | taken (action : p.action = .ok .succeeded) (content : w.content = none)
      (kept : ∃ b held, p.session.buffer = some b ∧ s.buffer = some held ∧ held.capacity = b.capacity)

variable [Deflate.LawfulCompressor κ] [Deflate.PromptCompressor κ] (owed : κ → Nat) (bounded : Deflate.Bounded owed)
  (w : Write) (s t : Session κ) (r : Resources κ) (e : Deflate.Engine κ) (b : Buffer) (data out made : Bytes)
  (stage : Deflate.Stage)

include bounded

theorem deflate_flushed (here : e.At data out stage) (open_ : e.finishing = false) (given : e.input ≠ [])
    (opens : Opens t out made b) (sync : s.syncFlush = true) (content : w.content = none) :
    Flushed (w.deflate s r e b) made data := by
  have short := opens.short
  have roomy := opens.room
  simp only [headerSize] at short
  have positive : 0 < b.free := by simp only [Buffer.free]; omega
  obtain ⟨d, chunk, result, calls⟩ :=
    Deflate.Engine.deflate_fed owed bounded e data out stage b.free s.syncFlush here open_
    given positive
  have unfinished : ¬ (d.finished = true ∧ trailerSize ≤ (b.put chunk).free) := fun done => by
    cases calls.here.finished.mp done.1
  rw [deflate, result]
  dsimp only
  rw [conclude_onward w s r d (b.put chunk) unfinished]
  refine ⟨?_, content, by simp, ?_⟩
  · dsimp only
    split <;> rintro ⟨⟩
  rintro held ⟨⟩ left
  have unused := put_unused b chunk calls.room positive left
  rw [sync] at result
  have reads := Deflate.Engine.deflate_prompt e data out stage b.free here open_ given d chunk result unused
  have text : made ++ (b.put chunk).data = header ++ (out ++ chunk) := by
    rw [Buffer.put_data, ← List.append_assoc, opens.text, List.append_assoc]
  rw [text]
  exact (header_current _ _).mpr reads

theorem advance_prompts (under : w.Under s r e data out made stage) (opens : Opens s out made b) (more : w.last = false)
    (sync : s.syncFlush = true) (nothing : s.buffer = none → data = [])
    (kept : s.buffer.all (·.capacity = b.capacity) = true) :
    Prompts w s (w.advance s r e b) made (data ++ w.content.getD []) := by
  obtain ⟨carries, closing, nonempty, waiting⟩ := under
  have open_ : e.finishing = false :=
    Bool.eq_false_iff.mpr fun finishing => by cases more.symm.trans (closing finishing).1
  have unfinished : e.finished = false := Bool.eq_false_iff.mpr fun finished =>
    by cases open_.symm.trans (Deflate.Engine.finished_finishing e data out stage carries.engine finished)
  rw [advance, if_neg (by simp [unfinished])]
  by_cases drained : e.input = []
  · rw [if_pos (by simpa [Deflate.Engine.needsInput] using drained)]
    cases content : w.content with
    | some octets =>
        have handed := Deflate.Engine.set_input_at e data out octets stage carries.engine drained open_
        have given : (e.setInput octets).input ≠ [] := by
          rintro rfl
          exact nonempty content
        exact .onward (deflate_flushed owed bounded _ { s with checksum := s.checksum.add octets }
          s r _ b _ out made stage
          handed open_ given opens sync rfl)
    | none =>
        simp only [more, Bool.false_eq_true, if_false]
        cases octets : b.data with
        | nil =>
            refine .taken rfl content ?_
            cases buffer : s.buffer with
            | some held => exact ⟨b, held, rfl, rfl, by simpa [buffer] using kept⟩
            | none =>
                obtain ⟨rfl, rfl⟩ := carries.unopened buffer
                have text := opens.text
                rw [octets] at text
                exact absurd text (by decide)
        | cons first rest =>
            have unopened : s.buffer = none := by
              refine Decidable.byContradiction fun held => ?_
              simp [opens.cleared (by simpa using held)] at octets
            obtain ⟨rfl, rfl⟩ := carries.unopened unopened
            obtain rfl := nothing unopened
            refine .onward ⟨by simp, content, by simp, ?_⟩
            rintro _ ⟨⟩ -
            rw [opens.text, header_current]
            exact Deflate.nothing_reads
  · rw [if_neg (by simpa [Deflate.Engine.needsInput] using drained)]
    have empty : w.content = none := Decidable.byContradiction fun content => drained (waiting content)
    rw [empty, Option.getD_none, List.append_nil]
    exact .onward (deflate_flushed owed bounded w s s r e b data out made stage carries.engine open_
      drained opens sync empty)

theorem step_prompts (under : w.Under s r e data out made stage) (more : w.last = false) (sync : s.syncFlush = true)
    (nothing : s.buffer = none → data = []) : Prompts w s (w.step s r) made (data ++ w.content.getD []) := by
  obtain ⟨entry, held, rfl⟩ := under.carries.entry
  obtain ⟨opens, engines⟩ := open_buffer s r _ data out made stage under.carries
  have step : w.step s r = w.advance s (openBuffer s r).2 (r.engines.engine entry) (openBuffer s r).1 := by
    simp only [step, held]
  have carries : s.Carries (openBuffer s r).2 (r.engines.engine entry) data out made stage :=
    { under.carries with entry := ⟨entry, held, by rw [engines]⟩ }
  rw [step]
  refine advance_prompts owed bounded w s _ _ _ data out made stage { under with carries } opens more sync nothing ?_
  rw [openBuffer]
  cases s.buffer with
  | none => rfl
  | some b => exact decide_eq_true rfl

end Write

def latest (log : List Delivery) : Bytes := (log.getLast?.bind (·.content)).getD []

theorem latest_append (log : List Delivery) (d : Delivery) : latest (log ++ [d]) = d.content.getD [] := by
  simp [latest]

namespace Response

variable {σ : Type}

-- What was written so far can be read, as long as the latest of it left room in its buffer.
structure Prompt (r : Response (Logged σ) κ) (data : Bytes) : Prop where
  sync : r.session.syncFlush = true
  nothing : r.session.buffer = none → data = []
  current (b : Buffer) : r.session.buffer = some b → (latest r.sink.log).length < b.capacity →
    IsCurrent (Logged.octets r.sink.log) data

section Settling

variable [Sink σ] (sound : σ → Prop) (reliable : Sink.Reliable sound) [Deflate.LawfulCompressor κ]
  [Deflate.PromptCompressor κ] (owed : κ → Nat) (bounded : Deflate.Bounded owed)

include reliable

omit [Deflate.Compressor κ] [Deflate.LawfulCompressor κ] [Deflate.PromptCompressor κ] in
theorem sent_prompt (r : Response (Logged σ) κ) (p : Progress κ) (total : Bytes) (here : sound r.sink.sink)
    (sync : p.session.syncFlush = true) (flushed : Write.Flushed p (Logged.octets r.sink.log) total) :
    ((r.stepped p).sent false (some p.session.output)).Prompt total := by
  obtain ⟨-, logged, -⟩ := logged_write sound reliable r.sink false (some p.session.output) here
  refine ⟨sync, fun none => absurd none flushed.opened, fun b held unused => ?_⟩
  have output : p.session.output = b.data := by rw [Session.output, show p.session.buffer = some b from held]
  have chunk : latest ((r.stepped p).sent false (some p.session.output)).sink.log = b.data := by
    refine (congrArg latest logged).trans ?_
    rw [latest_append, Option.getD_some, output]
  rw [sent_octets, Option.getD_some, output]
  exact flushed.current b held (chunk ▸ unused)

omit reliable in
omit [Sink σ] [Deflate.Compressor κ] [Deflate.LawfulCompressor κ] [Deflate.PromptCompressor κ] in
theorem stepped_prompt (r : Response (Logged σ) κ) (p : Progress κ) (total : Bytes) (sync : p.session.syncFlush = true)
    (flushed : Write.Flushed p (Logged.octets r.sink.log) total) (empty : p.session.output = [])
    (roomy : ∀ b, p.session.buffer = some b → 0 < b.capacity) : (r.stepped p).Prompt total := by
  refine ⟨sync, fun none => absurd none flushed.opened, fun b held _ => ?_⟩
  have data : b.data = [] := by rw [← empty, Session.output, show p.session.buffer = some b from held]
  have reads := flushed.current b held (by rw [data]; exact roomy b held)
  rwa [data, List.append_nil] at reads

include bounded

-- A write that is not the last comes to its end, by the effort that each of its steps takes away from.
theorem settle_prompt (r : Response (Logged σ) κ) (w : Write) (e : Deflate.Engine κ) (data out : Bytes)
    (stage : Deflate.Stage) (streams : r.Streams sound e data out stage)
    (under : w.Under r.session r.resources e data out (Logged.octets r.sink.log) stage) (more : w.last = false)
    (prompt : r.Prompt data) :
    ∃ q, settle 0 r (.compressing w) = some (q, .ok ()) ∧ q.Paused sound (data ++ w.content.getD []) ∧
      q.Prompt (data ++ w.content.getD []) := by
  obtain ⟨state, here, partly, quiet, -⟩ := streams
  have outcome := Write.step_outcome owed bounded w r.session r.resources e data out _ stage under
  have prompts :=
    Write.step_prompts owed bounded w r.session r.resources e data out _ stage under more
      prompt.sync prompt.nothing
  have sync := (Write.step_retains w r.session r.resources).syncFlush.trans prompt.sync
  generalize step : w.step r.session r.resources = p at outcome prompts sync
  generalize whole : data ++ w.content.getD [] = total at outcome prompts ⊢
  cases outcome with
  | onward d data' out' stage' action under' same last sooner =>
      rcases prompts with prompts | ⟨taken, -⟩
      · obtain rfl : data' = total := by rw [← same, prompts.content, Option.getD_none, List.append_nil]
        have total : data' ++ p.write.content.getD [] = data' := by
          rw [prompts.content, Option.getD_none, List.append_nil]
        rcases action with flushed | ⟨idle, empty⟩
        · have octets : Logged.octets ((r.stepped p).sent false (some p.session.output)).sink.log =
              Logged.octets r.sink.log ++ p.session.output := sent_octets (r.stepped p) false _
          have next :=
            sent_streams sound reliable (r.stepped p) (some p.session.output) d data'
              out' stage' state here partly
            quiet under'.carries
          have accepted := reliable.accepts r.sink.sink false (some p.session.output) here
          obtain ⟨q, settled, paused, kept⟩ := settle_prompt _ p.write d data' out' stage' next (octets ▸ under')
            (last.trans more) (sent_prompt sound reliable r p data' here sync prompts)
          exact ⟨q, (settle_flush 0 r w p step flushed accepted).trans settled, total ▸ paused, total ▸ kept⟩
        · rw [empty, List.append_nil] at under'
          have next : (r.stepped p).Streams sound d data' out' stage' := ⟨state, here, partly, quiet, under'.carries⟩
          have roomy (b : Buffer) (held : p.session.buffer = some b) : 0 < b.capacity := by
            have := (under'.carries.opened b held).1
            omega
          obtain ⟨q, settled, paused, kept⟩ := settle_prompt (r.stepped p) p.write d data' out' stage' next under'
            (last.trans more) (stepped_prompt r p data' sync prompts empty roomy)
          exact ⟨q, (settle_idle 0 r w p step idle).trans settled, total ▸ paused, total ▸ kept⟩
      · rcases action with flushed | ⟨idle, -⟩
        · cases flushed.symm.trans taken
        · cases idle.symm.trans taken
  | taken d out' action _ carries empty open_ =>
      have free : ((r.stepped p).unlock).holder = none := by simp [unlock, stepped, quiet]
      refine ⟨_, settle_taken 0 r w p step action, ⟨?_, free⟩, ?_⟩
      · exact ⟨d, out', ⟨state, here, partly, by simp [unlock, stepped, quiet], carries⟩, empty, open_⟩
      · rcases prompts with ⟨unended, -⟩ | ⟨-, content, b, held, mine, before, same⟩
        · exact absurd action unended
        · rw [content, Option.getD_none, List.append_nil] at whole
          subst whole
          refine ⟨sync, fun none => (by cases mine.symm.trans none), fun b' mine' unused => ?_⟩
          obtain rfl : b = b' := Option.some.inj (mine.symm.trans mine')
          exact prompt.current held before (same ▸ unused)
  | ended d front out' action last output forwarded here => cases more.symm.trans last
termination_by w.effort owed r.session e
decreasing_by
  · exact sooner
  · exact sooner

theorem settle_prompted (r : Response (Logged σ) κ) (content : Option Bytes) (e : Deflate.Engine κ) (data out : Bytes)
    (streams : r.Streams sound e data out .running) (empty : e.input = []) (open_ : e.finishing = false)
    (prompt : r.Prompt data) :
    ∃ q, settle 0 r (.compressing (.new false content)) = some (q, .ok ()) ∧ q.Paused sound (data ++ content.getD []) ∧
      q.Prompt (data ++ content.getD []) := by
  have under := Write.new_under false content _ _ e data out _ streams.carries empty open_
  have settled := settle_prompt sound reliable owed bounded r _ e data out .running streams under rfl prompt
  rwa [show (Write.new false content).content.getD [] = content.getD [] from filter_octets content] at settled

theorem dispatch_prompt (r : Response (Logged σ) κ) (content : Option Bytes) (data : Bytes)
    (paused : r.Paused sound data)
    (prompt : r.Prompt data) :
    ∃ q, settle 0 (r.dispatch 0 false content).1 (r.dispatch 0 false content).2 = some (q, .ok ()) ∧
      q.Paused sound (data ++ content.getD []) ∧ q.Prompt (data ++ content.getD []) := by
  obtain ⟨⟨e, out, streams, empty, open_⟩, free⟩ := paused
  have locked : (r.lock 0).Streams sound e data out .running :=
    ⟨streams.state, streams.sound, streams.partly, streams.quiet, streams.carries⟩
  simp only [dispatch, streams.state, free, Option.isNone_none, if_true]
  exact settle_prompted sound reliable owed bounded (r.lock 0) content e data out locked empty open_
    ⟨prompt.sync, prompt.nothing, prompt.current⟩

theorem commit_prompt (r : Response (Logged σ) κ) (content : Option Bytes) (idle : r.session.entry = none)
    (buffer : r.session.buffer = none) (size : 64 ≤ r.session.bufferSize) (sync : r.session.syncFlush = true)
    (quiet : r.queue = []) (here : sound r.sink.sink) (unlogged : r.sink.log = []) (ready : r.resources.engines.Ready)
    (coded : (r.commit false content).1.state = .compressing) :
    ∃ q, settle 0 (r.commit false content).1 (r.commit false content).2 = some (q, .ok ()) ∧
      q.Paused sound (content.getD []) ∧ q.Prompt (content.getD []) := by
  cases verdict : r.judge r.head false content with
  | plain headers => simp [commit, verdict, pass] at coded
  | coded headers entry engines =>
      obtain ⟨q, opened, same⟩ := commit_opened r false content headers entry engines verdict idle buffer size ready
      obtain ⟨e, carries, empty, open_⟩ := opened.carries
      have log : q.sink.log = [] := (congrArg Logged.log opened.sink).trans unlogged
      obtain ⟨_, session⟩ := opened.session
      have unopened : q.session.buffer = none := by rw [session, ← buffer]
      have streams : q.Streams sound e [] [] .running := by
        refine ⟨opened.state, ?_, ?_, opened.queue.trans quiet, ?_⟩
        · rw [opened.sink]
          exact reliable.edits _ _ here
        · simp [log]
        · rw [log]
          exact carries
      have prompt (q' : Response (Logged σ) κ) (kept : q'.session = q.session) : q'.Prompt [] := by
        refine ⟨?_, fun _ => rfl, fun b held => ?_⟩
        · rw [kept, session, ← sync]
        · rw [kept, unopened] at held
          cases held
      rw [same]
      split
      · rename_i heading
        have nothing : content.getD [] = [] := by simp_all
        obtain ⟨p, settled, takes⟩ := settle_heading sound reliable q e [] [] streams empty open_
        have accepted := (logged_write sound reliable q.sink false none streams.sound).1
        have sent := (settle_writing 0 q false none .heading accepted).trans (settle_done 0 _ _)
        obtain rfl : (q.sent false none).unlock = p := congrArg (·.1) (Option.some.inj (sent.symm.trans settled))
        rw [nothing]
        exact ⟨_, settled, takes.paused rfl, prompt _ rfl⟩
      · have settled := settle_prompted sound reliable owed bounded q content e [] [] streams empty open_ (prompt q rfl)
        rwa [List.nil_append] at settled

omit bounded in
theorem perform_prompt (r : Response (Logged σ) κ) (contents : List (Option Bytes)) (data : Bytes)
    (paused : r.Paused sound data) (prompt : r.Prompt data) :
    (r.perform (contents.map (.write false))).2 = List.replicate contents.length (.ok ()) ∧
      (r.perform (contents.map (.write false))).1.Paused sound (data ++ (contents.map (·.getD [])).flatten) ∧
      (r.perform (contents.map (.write false))).1.Prompt (data ++ (contents.map (·.getD [])).flatten) := by
  obtain ⟨owed, bounded⟩ := Deflate.LawfulCompressor.finite (κ := κ)
  induction contents generalizing r data with
  | nil => simpa [perform] using ⟨paused, prompt⟩
  | cons content rest ih =>
      obtain ⟨q, settled, paused', prompt'⟩ := dispatch_prompt sound reliable owed bounded r _ data paused prompt
      have called := call_settled r (.write false content) q (.ok ()) settled
      rw [filter_octets] at paused' prompt'
      obtain ⟨sent, paused'', prompt''⟩ := ih q _ paused' prompt'
      rw [List.append_assoc] at paused'' prompt''
      simp only [List.map_cons, perform, called, sent, List.flatten_cons]
      exact ⟨rfl, paused'', prompt''⟩

omit bounded in
theorem perform_prompted (r : Response (Logged σ) κ) (first : Option Bytes)
    (rest : List (Option Bytes)) (fresh : r.IsFresh)
    (size : 64 ≤ r.session.bufferSize) (sync : r.session.syncFlush = true) (here : sound r.sink.sink)
    (unlogged : r.sink.log = []) (ready : r.resources.engines.Ready)
    (coded : (r.start 0 (.write false first)).1.state = .compressing) :
    (r.perform ((first :: rest).map (.write false))).2 = List.replicate (rest.length + 1) (.ok ()) ∧
      (r.perform ((first :: rest).map (.write false))).1.Paused sound ((first :: rest).map (·.getD [])).flatten ∧
      (r.perform ((first :: rest).map (.write false))).1.Prompt ((first :: rest).map (·.getD [])).flatten := by
  obtain ⟨owed, bounded⟩ := Deflate.LawfulCompressor.finite (κ := κ)
  have commits : r.start 0 (.write false first) =
      ({ r with state := .committing }.lock 0).commit false (first.filter (!·.isEmpty)) := by
    simp only [start, dispatch, fresh.state]
    exact acquire_free ({ r with state := .committing } : Response (Logged σ) κ) 0 _ fresh.holder
  rw [commits] at coded
  obtain ⟨q, settled, paused, prompt⟩ :=
    commit_prompt sound reliable owed bounded ({ r with state := .committing }.lock 0) _
    fresh.entry fresh.buffer size sync fresh.queue here unlogged ready coded
  rw [filter_octets] at paused prompt
  have called := call_settled r (.write false first) q (.ok ()) (commits ▸ settled)
  obtain ⟨sent, paused', prompt'⟩ := perform_prompt sound reliable q rest _ paused prompt
  simp only [List.map_cons, perform, called, sent, List.flatten_cons]
  exact ⟨rfl, paused', prompt'⟩

omit bounded in
-- After each write of a compressed response that is to flush, all that was written so far can be read from what
-- the sink was given, as long as the latest of it did not fill its buffer.
theorem sync_flushes (r : Response (Logged σ) κ) (first : Option Bytes) (rest : List (Option Bytes)) (fresh : r.IsFresh)
    (size : minBufferSize ≤ r.session.bufferSize) (sync : r.session.syncFlush = true) (here : sound r.sink.sink)
    (unlogged : r.sink.log = []) (ready : r.resources.engines.Ready)
    (coded : (r.start 0 (.write false first)).1.state = .compressing) :
    let q := (r.perform ((first :: rest).map (.write false))).1
    let data := ((first :: rest).map (·.getD [])).flatten
    (∀ result ∈ (r.perform ((first :: rest).map (.write false))).2, result = .ok ()) ∧
    match q.session.buffer with
    | none => Logged.octets q.sink.log = [] ∧ data = []
    | some b =>
      header <+: Logged.octets q.sink.log ∧
        ((latest q.sink.log).length < b.capacity →
          Deflate.read ((Logged.octets q.sink.log).drop headerSize) = (data, .error .short)) := by
  intro q data
  obtain ⟨sent, paused, prompt⟩ :=
    perform_prompted sound reliable r first rest fresh size sync here unlogged ready coded
  obtain ⟨⟨e, out, streams, -, -⟩, -⟩ := paused
  refine ⟨?_, ?_⟩
  · intro result member
    rw [sent] at member
    exact (List.mem_replicate.mp member).2
  · cases buffer : q.session.buffer with
    | none => exact ⟨(streams.carries.unopened buffer).2, prompt.nothing buffer⟩
    | some b =>
        refine ⟨?_, prompt.current b buffer⟩
        rw [(streams.carries.opened b buffer).2]
        exact List.prefix_append header out

end Settling

section Storing

def storing : Response (Logged Recorder) Deflate.Encoder :=
  { Response.new ⟨.new .empty, []⟩ ⟨[], 0⟩ ⟨.new 1 0, .standard⟩ with session := .new minBufferSize true }

def stored (octets : Nat) : Response (Logged Recorder) Deflate.Encoder :=
  storing.afterCall 9 (.write false (some (List.replicate octets 104)))

theorem storing_performs (octets : Nat)
    (fine : (storing.callWithin 9 (.write false (some (List.replicate octets 104)))).any (·.2.isOk) = true) :
    storing.perform [.write false (some (List.replicate octets 104))] = (stored octets, [.ok ()]) := by
  have called : storing.call (.write false (some (List.replicate octets 104))) = (stored octets, .ok ()) :=
    call_within storing 9 _ fine
  simp only [perform, called]

theorem sync_flushes_short :
    Deflate.read
      ((Logged.octets (storing.perform [.write false (some (List.replicate 40 104))]).1.sink.log).drop
        headerSize) =
      (List.replicate 40 104, .error .short) := by
  have performs := storing_performs 40 (by decide +kernel)
  obtain ⟨-, reads⟩ := sync_flushes Recorder.IsOpen recorder_reliable storing (some (List.replicate 40 104)) []
    ⟨rfl, rfl, rfl, rfl, rfl, rfl⟩ (Nat.le_refl minBufferSize) rfl ⟨rfl, rfl⟩ rfl
      (Deflate.new_ready 1 0) (by decide +kernel)
  simp only [List.map_cons, List.map_nil] at reads
  rw [performs] at reads ⊢
  have buffer : (stored 40).session.buffer = some ⟨64, []⟩ := by decide +kernel
  dsimp only at reads
  rw [buffer] at reads
  exact reads.2 (by decide +kernel)

-- The output of one write fills the buffer, and what is left of it stays behind.
theorem output_withheld :
    storing.session.syncFlush = true ∧ minBufferSize ≤ storing.session.bufferSize ∧
    storing.perform [.write false (some (List.replicate 60 104))] = (stored 60, [.ok ()]) ∧
    (stored 60).state = .compressing ∧
    (Deflate.read ((Logged.octets (stored 60).sink.log).drop headerSize)).1 = List.replicate 49 104 :=
  ⟨rfl, Nat.le_refl minBufferSize, storing_performs 60 (by decide +kernel), by decide +kernel, by decide +kernel⟩

end Storing

end Response

end Gateway.Gzip
