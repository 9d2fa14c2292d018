import Gateway.Proofs.Gzip.Delivery
import Gateway.Proofs.Gzip.Passage

set_option autoImplicit false

namespace Gateway.Gzip

def Call.closes : Call → Bool
  | .write last _ => last
  | .succeeded => true
  | .failed => true
  | .noCompression => false

variable {σ κ : Type} [Deflate.Compressor κ]

def Session.Pauses (s : Session κ) (r : Resources κ) : Prop :=
  ∃ e data out made, s.Carries r e data out made .running ∧ e.input = [] ∧ e.finishing = false

def Write.Works (w : Write) (s : Session κ) (r : Resources κ) : Prop :=
  ∃ e data out made stage, w.Under s r e data out made stage

namespace Response

def Rests (r : Response σ κ) : Prop :=
  match r.state with
  | .mightCompress =>
      r.session.entry = none ∧ r.session.buffer = none ∧ 64 ≤ r.session.bufferSize ∧ r.resources.engines.Ready
  | .committing => False
  | .notCompressing => True
  | .compressing => r.session.Pauses r.resources
  | .finished => True

def Bears (r : Response σ κ) (closes : Bool) : Phase → Prop
  | .waiting errand => errand = .abandon ∧ closes = true ∧ r.Rests
  | .writing last _ .passing => r.state = .notCompressing ∧ last = closes
  | .writing last _ .heading => r.state = .compressing ∧ last = false ∧ closes = false ∧ r.session.Pauses r.resources
  | .writing true _ (.flushing _) => r.state = .compressing ∧ closes = true
  | .writing false _ (.flushing w) => r.state = .compressing ∧ w.last = closes ∧ w.Works r.session r.resources
  | .compressing w => r.state = .compressing ∧ w.last = closes ∧ w.Works r.session r.resources
  | .done _ => False

-- What one step of a call with the lock does to the response: nothing yet, or all that was asked for.
inductive Serves (sound : σ → Prop) (r : Response σ κ) (closes : Bool) (p : Response σ κ × Phase) : Prop where
  | onward (bears : p.1.Bears closes p.2) (state : p.1.state = r.state) (open_ : p.1.IsOpen sound)
  | ended (accepted : p.2 = .done (.ok ())) (rests : p.1.Rests) (open_ : p.1.IsOpen sound)
      (closed : closes = true → p.1.state = .finished) (left : closes = false → p.1.state = r.state)

theorem rests_finished (r : Response σ κ) (state : r.state = .finished) : r.Rests := by
  rw [Rests, state]
  trivial

theorem rests_passing (r : Response σ κ) (state : r.state = .notCompressing) : r.Rests := by
  rw [Rests, state]
  trivial

theorem rests_pauses (r : Response σ κ) (state : r.state = .compressing)
    (pauses : r.session.Pauses r.resources) : r.Rests := by
  rw [Rests, state]
  exact pauses

variable (sound : σ → Prop) (r : Response σ κ) (closes : Bool)

theorem after_write_serves (last : Bool) (content : Option Bytes) (site : Site)
    (bears : r.Bears closes (.writing last content site)) (here : last = false → sound r.sink) :
    r.Serves sound closes (r.afterWrite last (.ok ()) site) := by
  cases site with
  | passing =>
      obtain ⟨state, rfl⟩ := bears
      cases last with
      | true => exact .ended rfl (rests_finished _ rfl) (.inl rfl) (fun _ => rfl) nofun
      | false =>
          exact .ended rfl (rests_passing _ state) (.inr (here rfl)) nofun fun _ => rfl
  | heading =>
      obtain ⟨state, rfl, rfl, pauses⟩ := bears
      exact .ended rfl (rests_pauses _ state pauses) (.inr (here rfl)) nofun fun _ => rfl
  | flushing w =>
      cases last with
      | true =>
          exact .ended rfl (rests_finished _ rfl) (.inl rfl) (fun _ => rfl) fun open_ =>
            absurd (bears.2.symm.trans open_) nofun
      | false => exact .onward bears rfl (.inr (here rfl))

section Compressing

variable [Deflate.LawfulCompressor κ]

theorem compress_serves (w : Write) (bears : r.Bears closes (.compressing w)) (here : sound r.sink) :
    r.Serves sound closes (r.compress w) := by
  obtain ⟨owed, bounded⟩ := Deflate.LawfulCompressor.finite (κ := κ)
  obtain ⟨state, rfl, e, data, out, made, stage, under⟩ := bears
  have outcome := Write.step_outcome owed bounded w r.session r.resources e data out made stage under
  rw [compress]
  generalize w.step r.session r.resources = p at outcome
  dsimp only
  cases outcome with
  | onward d data' out' stage' action under' whole last sooner =>
      have works : p.write.Works p.session p.resources := ⟨d, data', out', _, stage', under'⟩
      rcases action with flushed | ⟨idle, -⟩
      · rw [flushed]
        exact .onward ⟨state, last, works⟩ rfl (.inr here)
      · rw [idle]
        exact .onward ⟨state, last, works⟩ rfl (.inr here)
  | taken d out' action more carries empty open_ =>
      rw [action]
      refine .ended rfl (rests_pauses _ state ⟨d, _, out', made, carries, empty, open_⟩) (.inr here) ?_ fun _ => rfl
      exact fun last => by cases more.symm.trans last
  | ended d front out' action last output forwarded ended =>
      rw [action]
      exact .onward ⟨state, last⟩ rfl (.inr here)

variable [Sink σ] (reliable : Sink.Reliable sound)

include reliable

theorem resume_serves (me : Nat) (phase : Phase) (bears : r.Bears closes phase) (mine : r.holder = some me)
    (open_ : r.IsOpen sound) : r.Serves sound closes (r.resume me phase) := by
  cases phase with
  | waiting errand =>
      obtain ⟨rfl, rfl, -⟩ := bears
      rw [resume, if_pos mine]
      exact .ended rfl (rests_finished _ rfl) (.inl rfl) (fun _ => rfl) (by simp)
  | writing last content site =>
      have here : sound r.sink := open_.resolve_left fun finished => by
        cases site with
        | flushing w => cases last <;> cases bears.1.symm.trans finished
        | _ => cases bears.1.symm.trans finished
      rw [resume_writing me r last content site (reliable.accepts r.sink last content here)]
      have same : (r.sent last content).Bears closes (.writing last content site) := by
        cases site with
        | flushing w => cases last <;> exact bears
        | _ => exact bears
      have stays (more : last = false) : sound (r.sent last content).sink := by
        subst more
        exact reliable.stays r.sink content here
      cases after_write_serves sound (r.sent last content) closes last content site same stays with
      | onward bears' state open' => exact .onward bears' state open'
      | ended accepted rests open' closed left => exact .ended accepted rests open' closed left
  | compressing w =>
      exact compress_serves sound r closes w bears
        (open_.resolve_left fun finished => by cases bears.1.symm.trans finished)
  | done result => exact bears.elim

end Compressing

section Starting

variable [Sink σ] (reliable : Sink.Reliable sound) (me : Nat)

include reliable

theorem commit_bears (last : Bool) (content : Option Bytes) (idle : r.session.entry = none)
    (buffer : r.session.buffer = none)
    (size : 64 ≤ r.session.bufferSize) (ready : r.resources.engines.Ready) (here : sound r.sink) :
    (r.commit last content).1.Bears last (r.commit last content).2 ∧ sound (r.commit last content).1.sink ∧
      (r.commit last content).1.state ≠ .finished := by
  have edited (headers : Header.Map) : sound (r.setHeaders headers).sink := reliable.edits _ _ here
  rw [commit]
  cases verdict : r.judge r.head last content with
  | plain headers => exact ⟨⟨rfl, rfl⟩, edited headers, by rintro ⟨⟩⟩
  | coded headers entry engines =>
      obtain ⟨q, opened, same⟩ := commit_opened r last content headers entry engines verdict idle buffer size ready
      obtain ⟨e, carries, empty, open_⟩ := opened.carries
      have here' : sound q.sink := opened.sink ▸ edited headers
      rw [commit, verdict] at same
      dsimp only at same ⊢
      rw [same]
      refine ⟨?_, here', by simp [opened.state]⟩
      split
      · rename_i heading
        exact ⟨opened.state, rfl, by simpa using heading.2, e, [], [], [], carries, empty, open_⟩
      · exact ⟨opened.state, rfl, e, _, _, _, _, Write.new_under last content _ _ e [] [] [] carries empty open_⟩

inductive Begins (me : Nat) (call : Call) (p : Response σ κ × Phase) : Prop where
  | entered (bears : p.1.Bears call.closes p.2) (holder : p.1.holder = some me) (here : sound p.1.sink)
      (before : r.state ≠ .finished) (after : p.1.state ≠ .finished)
  | answered (result : Sent) (phase : p.2 = .done result) (rests : p.1.Rests) (free : p.1.holder = none)
      (open_ : p.1.IsOpen sound) (closed : result = .ok () → call.closes = true → p.1.state = .finished)
      (cause : p.1.state = .finished → r.state = .finished ∨ result = .ok () ∧ call.closes = true)
      (stays : r.state = .finished → p.1.state = .finished)

theorem dispatch_begins (call : Call) (content : Option Bytes) (rests : r.Rests) (free : r.holder = none)
    (open_ : r.IsOpen sound) : r.Begins sound me call (r.dispatch me call.closes content) := by
  cases state : r.state with
  | finished =>
      have answers : r.dispatch me call.closes content =
          (r, .done (if content.isSome then .error (.illegalState State.finished.name) else .ok ())) := by
        simp only [dispatch, state]
      rw [answers]
      exact .answered _ rfl rests free open_ (fun _ _ => state) (fun finished => .inl finished) id
  | committing =>
      rw [Rests, state] at rests
      exact rests.elim
  | notCompressing =>
      have here : sound r.sink := open_.resolve_left (by simp [state])
      simp only [dispatch, state, free, Option.isNone_none, if_true]
      exact .entered ⟨state, rfl⟩ rfl here (by simp [state]) (by simp [pass, lock, state])
  | compressing =>
      have here : sound r.sink := open_.resolve_left (by simp [state])
      rw [Rests, state] at rests
      obtain ⟨e, data, out, made, carries, empty, more⟩ := rests
      simp only [dispatch, state, free, Option.isNone_none, if_true]
      exact .entered ⟨state, rfl, e, _, _, _, _, Write.new_under call.closes content _ _ e data
        out made carries empty more⟩
        rfl here
        (by simp [state]) (by simp [lock, state])
  | mightCompress =>
      have here : sound r.sink := open_.resolve_left (by simp [state])
      rw [Rests, state] at rests
      obtain ⟨idle, buffer, size, ready⟩ := rests
      simp only [dispatch, state]
      rw [acquire_free ({ r with state := .committing } : Response σ κ) me _ free, run]
      obtain ⟨bears, sound', after⟩ :=
        commit_bears sound ({ r with state := .committing }.lock me) reliable call.closes content
        idle buffer size ready here
      have step := commit_proceeds ({ r with state := .committing }.lock me) call.closes content rfl idle buffer
      have holder :
          (({ r with state := .committing }.lock me : Response σ κ).commit call.closes content).1.holder =
              some me := by
        rcases step.result with ⟨⟨result, done⟩, -⟩ | ⟨-, kept, -⟩
        · rw [done] at bears
          exact bears.elim
        · exact kept
      exact .entered bears holder sound' (by simp [state]) after

theorem start_begins (call : Call) (rests : r.Rests) (free : r.holder = none) (quiet : r.queue = [])
    (open_ : r.IsOpen sound) : r.Begins sound me call (r.start me call) := by
  have refused : r.Begins sound me call (r, .done (.error alreadyCompleted)) :=
    .answered _ rfl rests free open_ (by simp) (fun finished => .inl finished) id
  cases call with
  | write last content => exact dispatch_begins sound r reliable me (.write last content) _ rests free open_
  | succeeded =>
      rw [start]
      split
      · exact refused
      · cases dispatch_begins sound { r with completed := true } reliable me .succeeded none rests free open_ with
        | entered bears holder here before after => exact .entered bears holder here before after
        | answered result phase rests' free' open' closed cause stays =>
            exact .answered result phase rests' free' open' closed cause stays
  | failed =>
      rw [start]
      split
      · exact refused
      · rw [acquire_free ({ r with completed := true } : Response σ κ) me _ free]
        exact .answered (.ok ()) rfl (rests_finished _ rfl) (congrArg List.head? quiet) (.inl rfl) (fun _ _ => rfl)
          (fun _ => .inr ⟨rfl, rfl⟩) fun _ => rfl
  | noCompression =>
      rw [start]
      split
      · rename_i state
        have here : sound r.sink := open_.resolve_left (by simp [state])
        exact .answered (.ok ()) rfl (rests_passing _ rfl) free (.inr here) (by simp [Call.closes])
          (by simp [Call.closes]) fun finished =>
          by cases state.symm.trans finished
      · exact .answered (.ok ()) rfl rests free open_ (by simp [Call.closes]) (fun finished => .inl finished) id
      · exact .answered _ rfl rests free open_ (by simp) (fun finished => .inl finished) id

end Starting

theorem start_taken [Sink σ] (me other : Nat) (call : Call) (taken : r.holder = some other)
    (started : r.state ≠ .mightCompress) :
    ∃ completed queue phase, r.start me call = ({ r with completed, queue }, phase) ∧
      ((phase = .waiting .abandon ∧ call.closes = true) ∨
        ∃ result, phase = .done result ∧ (result = .ok () → call.closes = true → r.state = .finished)) := by
  have dispatched (q : Response σ κ) (state : q.state = r.state) (held : q.holder = some other) (last : Bool)
      (content : Option Bytes) : ∃ result, q.dispatch me last content = (q, .done result) ∧
        (result = .ok () → r.state = .finished) := by
    cases current : q.state with
    | mightCompress => exact absurd (state.symm.trans current) started
    | finished =>
        refine ⟨if content.isSome then .error (.illegalState State.finished.name) else .ok (), ?_,
          fun _ => state.symm.trans current⟩
        simp only [dispatch, current]
    | committing => exact ⟨.error .writePending, by simp only [dispatch, current], by simp⟩
    | notCompressing | compressing => exact ⟨.error .writePending, by simp [dispatch, current, held], by simp⟩
  cases call with
  | write last content =>
      obtain ⟨result, same, finished⟩ := dispatched r rfl taken last (content.filter (!·.isEmpty))
      exact ⟨r.completed, r.queue, _, same, .inr ⟨result, rfl, fun fine _ => finished fine⟩⟩
  | succeeded =>
      rw [start]
      split
      · exact ⟨r.completed, r.queue, _, rfl, .inr ⟨_, rfl, by simp⟩⟩
      · obtain ⟨result, same, finished⟩ := dispatched { r with completed := true } rfl taken true none
        exact ⟨true, r.queue, _, same, .inr ⟨result, rfl, fun fine _ => finished fine⟩⟩
  | failed =>
      rw [start]
      split
      · exact ⟨r.completed, r.queue, _, rfl, .inr ⟨_, rfl, by simp⟩⟩
      · rw [acquire_taken ({ r with completed := true } : Response σ κ) me other _ taken]
        exact ⟨true, r.queue ++ [me], _, rfl, .inl ⟨rfl, rfl⟩⟩
  | noCompression =>
      rw [start]
      split
      · contradiction
      · exact ⟨r.completed, r.queue, _, rfl, .inr ⟨_, rfl, by simp [Call.closes]⟩⟩
      · exact ⟨r.completed, r.queue, _, rfl, .inr ⟨_, rfl, by simp⟩⟩

end Response

end Gateway.Gzip
