import Gateway.Proofs.Gzip.Lending
import Gateway.Proofs.Sink.Fault

set_option autoImplicit false

namespace Gateway.Gzip

variable {σ κ : Type} [Sink σ] [Deflate.Compressor κ]

namespace Response

inductive Footing (r : Response (Logged σ) κ) : Prop where
  | unwritten (state : r.state = .mightCompress) (idle : r.session.entry = none) (buffer : r.session.buffer = none)
      (size : 64 ≤ r.session.bufferSize) (ready : r.resources.engines.Ready) (unlogged : r.sink.log = [])
  | passing (state : r.state = .notCompressing)
  | streaming (state : r.state = .compressing) (e : Deflate.Engine κ) (data out : Bytes)
      (carries : r.session.Carries r.resources e data out (Logged.octets r.sink.log) .running) (empty : e.input = [])
      (open_ : e.finishing = false)

structure Ongoing (r : Response (Logged σ) κ) : Prop where
  partly : Logged.IsPartial r.sink.log
  free : r.holder = none
  quiet : r.queue = []
  completed : r.completed = false
  footing : r.Footing

structure Ended (r : Response (Logged σ) κ) (last : Bool) (result : Sent) : Prop where
  state : r.state = .finished
  free : r.holder = none
  completed : r.completed = false
  closes : Logged.Closes r.sink.log last result

def Resolves (q : Response (Logged σ) κ) (last : Bool) (result : Sent) : Prop :=
  (last = false ∧ result = .ok () ∧ q.Ongoing) ∨ (q.Ended last result ∧ (result = .ok () → last = true))

variable (me : Nat) (r : Response (Logged σ) κ)

structure Alone (r : Response (Logged σ) κ) : Prop where
  partly : Logged.IsPartial r.sink.log
  quiet : r.queue = []
  completed : r.completed = false

def answer (last : Bool) (content : Option Bytes) : Sent := (Sink.write r.sink last content).2

section Sending

omit [Deflate.Compressor κ]

theorem sent_log (last : Bool) (content : Option Bytes) :
    (r.sent last content).sink.log =
      r.sink.log ++ [⟨Sink.head r.sink.sink, last, content, r.answer last content⟩] := rfl

theorem sent_closes (partly : Logged.IsPartial r.sink.log) (last may : Bool) (content : Option Bytes)
    (allowed : last = true → may = true) (ends : r.answer last content = .ok () → last = true) :
    Logged.Closes (r.sent last content).sink.log may (r.answer last content) :=
  ⟨r.sink.log, _, sent_log r last content, partly, rfl, allowed, ends⟩

theorem sent_partial (partly : Logged.IsPartial r.sink.log) (content : Option Bytes)
    (fine : r.answer false content = .ok ()) :
    Logged.IsPartial (r.sent false content).sink.log := by
  rw [sent_log]
  exact Logged.partial_append _ _ partly ⟨rfl, fine⟩

end Sending

theorem settle_answered (last : Bool) (content : Option Bytes) (site : Site) :
    settle me r (.writing last content site) =
      settle me ((r.sent last content).afterWrite last (r.answer last content) site).1
        ((r.sent last content).afterWrite last (r.answer last content) site).2 :=
  settle_active me r (.writing last content site) trivial

theorem settle_refused (last may : Bool) (content : Option Bytes) (site : Site) (e : SendError) (alone : r.Alone)
    (allowed : last = true → may = true) (refused : r.answer last content = .error e) :
    ∃ q result, settle me r (.writing last content site) = some (q, result) ∧ q.Resolves may result := by
  have closes := sent_closes r alone.partly last may content allowed (by rw [refused]; exact nofun)
  rw [refused] at closes
  rw [settle_answered, refused]
  cases site with
  | passing =>
      refine ⟨_, _, settle_done me _ _, .inr ⟨⟨rfl, ?_, alone.completed, closes⟩, nofun⟩⟩
      exact congrArg List.head? alone.quiet
  | heading =>
      refine ⟨_, _, settle_done me _ _, .inr ⟨⟨rfl, ?_, alone.completed, closes⟩, nofun⟩⟩
      exact congrArg List.head? alone.quiet
  | flushing w =>
      refine ⟨_, _, settle_done me _ _, .inr ⟨⟨rfl, ?_, alone.completed, closes⟩, nofun⟩⟩
      exact congrArg List.head? alone.quiet

theorem settle_passed (last : Bool) (content : Option Bytes) (state : r.state = .notCompressing) (alone : r.Alone) :
    ∃ q result, settle me r (.writing last content .passing) = some (q, result) ∧ q.Resolves last result := by
  cases answered : r.answer last content with
  | error e => exact settle_refused me r last last content .passing e alone id answered
  | ok done =>
      rw [settle_answered, answered]
      have free : r.queue.head? = none := congrArg List.head? alone.quiet
      cases last with
      | true =>
          have closes := sent_closes r alone.partly true true content id fun _ => rfl
          rw [answered] at closes
          exact ⟨_, _, settle_done me _ _, .inr ⟨⟨rfl, free, alone.completed, closes⟩, fun _ => rfl⟩⟩
      | false =>
          refine ⟨_, _, settle_done me _ _,
            .inl ⟨rfl, rfl, ?_, free, congrArg List.tail alone.quiet, alone.completed, .passing state⟩⟩
          exact sent_partial r alone.partly content answered

theorem settle_headed (state : r.state = .compressing) (alone : r.Alone) (e : Deflate.Engine κ) (data out : Bytes)
    (carries : r.session.Carries r.resources e data out (Logged.octets r.sink.log) .running) (empty : e.input = [])
    (open_ : e.finishing = false) :
    ∃ q result, settle me r (.writing false none .heading) = some (q, result) ∧ q.Resolves false result := by
  cases answered : r.answer false none with
  | error e => exact settle_refused me r false false none .heading e alone id answered
  | ok done =>
      rw [settle_answered, answered]
      have octets : Logged.octets (r.sent false none).sink.log = Logged.octets r.sink.log := by
        rw [sent_octets, Option.getD_none, List.append_nil]
      refine ⟨_, _, settle_done me _ _,
        .inl ⟨rfl, rfl, ?_, congrArg List.head? alone.quiet, congrArg List.tail alone.quiet,
        alone.completed, .streaming state e data out (octets ▸ carries) empty open_⟩⟩
      exact sent_partial r alone.partly none answered

section Compressing

variable [Deflate.LawfulCompressor κ] (owed : κ → Nat) (bounded : Deflate.Bounded owed)

include bounded

-- Every write comes to its end, by the effort that each of its steps takes away from.
theorem settle_ends (r : Response (Logged σ) κ) (w : Write) (e : Deflate.Engine κ)
    (data out : Bytes) (stage : Deflate.Stage)
    (state : r.state = .compressing) (alone : r.Alone)
    (under : w.Under r.session r.resources e data out (Logged.octets r.sink.log) stage) :
    ∃ q result, settle me r (.compressing w) = some (q, result) ∧ q.Resolves w.last result := by
  have outcome := Write.step_outcome owed bounded w r.session r.resources e data out _ stage under
  generalize step : w.step r.session r.resources = p at outcome
  have stepped : (r.stepped p).Alone := ⟨alone.partly, alone.quiet, alone.completed⟩
  have forwards (last : Bool) (action : p.action = .ok (.flush last)) : settle me r (.compressing w) =
      settle me (r.stepped p) (.writing last (some p.session.output) (.flushing p.write)) := by
    rw [settle_compressing, compress, step]
    dsimp only
    rw [action]
    rfl
  cases outcome with
  | onward d data' out' stage' action under' whole last sooner =>
      rcases action with flushed | ⟨idle, empty⟩
      · rw [forwards false flushed]
        cases answered : (r.stepped p).answer false (some p.session.output) with
        | error e => exact settle_refused me (r.stepped p) false w.last _ _ e stepped (by simp) answered
        | ok done =>
            have octets : Logged.octets ((r.stepped p).sent false (some p.session.output)).sink.log =
                Logged.octets r.sink.log ++ p.session.output := sent_octets (r.stepped p) false _
            rw [settle_answered, answered, ← last]
            exact settle_ends ((r.stepped p).sent false (some p.session.output)) p.write d data' out' stage' state
              ⟨sent_partial (r.stepped p) alone.partly _ answered, alone.quiet, alone.completed⟩ (octets ▸ under')
      · rw [empty, List.append_nil] at under'
        rw [settle_idle me r w p step idle, ← last]
        exact settle_ends (r.stepped p) p.write d data' out' stage' state stepped under'
  | taken d out' action more carries empty open_ =>
      refine ⟨_, _, settle_taken me r w p step action, .inl ⟨more, rfl, alone.partly, ?_, ?_, alone.completed, ?_⟩⟩
      · exact congrArg List.head? alone.quiet
      · exact congrArg List.tail alone.quiet
      · exact .streaming state d _ out' carries empty open_
  | ended d front out' action last output forwarded here =>
      rw [forwards true action, last]
      cases answered : (r.stepped p).answer true (some p.session.output) with
      | error e => exact settle_refused me (r.stepped p) true true _ _ e stepped id answered
      | ok done =>
          have closes := sent_closes (r.stepped p) alone.partly true true (some p.session.output) id fun _ => rfl
          rw [answered] at closes
          rw [settle_answered, answered]
          exact ⟨_, _, settle_done me _ _,
            .inr ⟨⟨rfl, congrArg List.head? alone.quiet, alone.completed, closes⟩, fun _ => rfl⟩⟩
termination_by w.effort owed r.session e
decreasing_by
  · exact sooner
  · exact sooner

end Compressing

section Writing

variable [Deflate.LawfulCompressor κ] (owed : κ → Nat) (bounded : Deflate.Bounded owed)

include bounded

theorem commit_ends (r : Response (Logged σ) κ) (last : Bool) (content : Option Bytes) (alone : r.Alone)
    (idle : r.session.entry = none) (buffer : r.session.buffer = none) (size : 64 ≤ r.session.bufferSize)
    (ready : r.resources.engines.Ready) (unlogged : r.sink.log = []) :
    ∃ q result, settle me (r.commit last content).1 (r.commit last content).2 = some (q, result) ∧
      q.Resolves last result := by
  rw [commit]
  cases verdict : r.judge r.head last content with
  | plain headers =>
      exact settle_passed me { r.setHeaders headers with state := .notCompressing } last content rfl
        ⟨alone.partly, alone.quiet, alone.completed⟩
  | coded headers entry engines =>
      obtain ⟨q, opened, same⟩ := commit_opened r last content headers entry engines verdict idle buffer size ready
      obtain ⟨e, carries, empty, open_⟩ := opened.carries
      have log : q.sink.log = r.sink.log := (congrArg Logged.log opened.sink).trans rfl
      have going : q.Alone :=
        ⟨log ▸ alone.partly, opened.queue.trans alone.quiet, opened.completed.trans alone.completed⟩
      have carries' : q.session.Carries q.resources e [] [] (Logged.octets q.sink.log) .running := by
        rw [log, unlogged]
        exact carries
      rw [commit, verdict] at same
      dsimp only at same ⊢
      rw [same]
      split
      · rename_i heading
        rw [show last = false by simpa using heading.2]
        exact settle_headed me q opened.state going e [] [] carries' empty open_
      · exact settle_ends me owed bounded q (.new last content) e [] [] .running opened.state going
          (Write.new_under last content _ _ e _ _ _ carries' empty open_)

theorem dispatch_ends (r : Response (Logged σ) κ) (last : Bool) (content : Option Bytes) (ongoing : r.Ongoing) :
    ∃ q result, settle 0 (r.dispatch 0 last content).1 (r.dispatch 0 last content).2 = some (q, result) ∧
      q.Resolves last result := by
  obtain ⟨partly, free, quiet, completed, footing⟩ := ongoing
  cases footing with
  | unwritten state idle buffer size ready unlogged =>
      have commits : r.dispatch 0 last content = ({ r with state := .committing }.lock 0).commit last content := by
        simp only [dispatch, state]
        exact acquire_free ({ r with state := .committing } : Response (Logged σ) κ) 0 _ free
      rw [commits]
      exact commit_ends 0 owed bounded ({ r with state := .committing }.lock 0) last content
        ⟨partly, quiet, completed⟩ idle
        buffer size ready unlogged
  | passing state =>
      simp only [dispatch, state, free, Option.isNone_none, if_true]
      exact settle_passed 0 (r.lock 0) last content state ⟨partly, quiet, completed⟩
  | streaming state e data out carries empty open_ =>
      simp only [dispatch, state, free, Option.isNone_none, if_true]
      exact settle_ends 0 owed bounded (r.lock 0) (.new last content) e data out .running state
        ⟨partly, quiet, completed⟩
        (Write.new_under last content _ _ e _ _ _ carries empty open_)

omit bounded in
theorem response_stops : Sink.Stops (Ongoing (σ := σ) (κ := κ)) Ended where
  write r last content ongoing := by
    obtain ⟨owed, bounded⟩ := Deflate.LawfulCompressor.finite (κ := κ)
    obtain ⟨q, result, settled, resolves⟩ := dispatch_ends owed bounded r last (content.filter (!·.isEmpty)) ongoing
    have called : Sink.write r last content = (q, result) := call_settled r (.write last content) q result settled
    rw [called]
    exact resolves
  edit r head ongoing := by
    obtain ⟨partly, free, quiet, completed, footing⟩ := ongoing
    refine ⟨partly, free, quiet, completed, ?_⟩
    cases footing with
    | unwritten state idle buffer size ready unlogged => exact .unwritten state idle buffer size ready unlogged
    | passing state => exact .passing state
    | streaming state e data out carries empty open_ => exact .streaming state e data out carries empty open_

end Writing

end Response

end Gateway.Gzip
