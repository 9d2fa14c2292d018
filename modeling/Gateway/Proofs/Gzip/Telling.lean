import Gateway.Proofs.Gzip.Commitment
import Gateway.Proofs.Gzip.Completion

set_option autoImplicit false

namespace Gateway

-- A sink that may refuse what it is given. A write that it accepts commits the head, for good.
structure Sink.Commits {σ : Type} [Sink σ] (sound : σ → Prop) : Prop where
  keeps (s : σ) (last : Bool) (content : Option Bytes) : sound s → sound (Sink.write s last content).1
  accepts (s : σ) (last : Bool) (content : Option Bytes) : sound s → (Sink.write s last content).2 = .ok () →
    Sink.isCommitted (Sink.write s last content).1 = true
  stays (s : σ) (last : Bool) (content : Option Bytes) : Sink.isCommitted s = true →
    Sink.isCommitted (Sink.write s last content).1 = true
  edits (s : σ) (head : Head) : sound s → sound (Sink.setHead s head)
  edited (s : σ) (head : Head) : Sink.isCommitted (Sink.setHead s head) = Sink.isCommitted s

def Recorder.IsFit (r : Recorder) : Prop := r.ended = true → r.committed.isSome = true

theorem Recorder.write_committed (r : Recorder) (last : Bool) (content : Option Bytes) :
    ((r.write last content).1 = r ∧ ((r.write last content).2 = .ok () → r.ended = true)) ∨
      (r.write last content).1.committed.isSome = true := by
  unfold write
  by_cases failing : r.failing = true
  · rw [if_pos failing]
    exact .inl ⟨rfl, fun accepted => by cases accepted⟩
  · rw [if_neg failing]
    by_cases ended : r.ended = true
    · rw [if_pos ended]
      exact .inl ⟨rfl, fun _ => ended⟩
    · rw [if_neg ended]
      refine .inr ?_
      cases r.committed <;> rfl

theorem recorder_commits : Sink.Commits Recorder.IsFit where
  keeps r last content fit := by
    rcases r.write_committed last content with ⟨same, -⟩ | committed
    · exact same.symm ▸ fit
    · exact fun _ => committed
  accepts r last content fit accepted := by
    rcases r.write_committed last content with ⟨same, ended⟩ | committed
    · exact (congrArg (·.committed.isSome) same).trans (fit (ended accepted))
    · exact committed
  stays r last content before := by
    rcases r.write_committed last content with ⟨same, -⟩ | committed
    · exact (congrArg (·.committed.isSome) same).trans before
    · exact committed
  edits _ _ fit := fit
  edited _ _ := rfl

structure Logged.IsFit {σ : Type} [Sink σ] (sound : σ → Prop) (s : Logged σ) : Prop where
  sound : sound s.sink
  unaccepted : Sink.isCommitted s = false → ∀ d ∈ s.log, d.result ≠ .ok ()

theorem logged_commits {σ : Type} [Sink σ] (sound : σ → Prop) (commits : Sink.Commits sound) :
    Sink.Commits (Logged.IsFit sound) where
  keeps s last content fit := by
    refine ⟨commits.keeps s.sink last content fit.sound, fun open_ => ?_⟩
    have before : Sink.isCommitted s = false := Bool.eq_false_iff.mpr fun committed =>
      by cases open_.symm.trans (commits.stays s.sink last content committed)
    refine List.forall_mem_append.mpr ⟨fit.unaccepted before, List.forall_mem_singleton.mpr fun accepted => ?_⟩
    cases open_.symm.trans (commits.accepts s.sink last content fit.sound accepted)
  accepts s last content fit accepted := commits.accepts s.sink last content fit.sound accepted
  stays s last content committed := commits.stays s.sink last content committed
  edits s head fit := ⟨commits.edits s.sink head fit.sound,
    fun open_ => fit.unaccepted ((commits.edited s.sink head).symm.trans open_)⟩
  edited s head := commits.edited s.sink head

namespace Gzip

variable {σ κ : Type}

def Phase.Leads (session : Session κ) : Phase → Prop
  | .writing _ _ _ => True
  | .compressing _ => session.buffer = none
  | _ => False

namespace Response

-- What the state of a response says of its sink, with the call that has the lock.
structure Tells [Sink σ] (sound : σ → Prop) (r : Response σ κ) (now : Option Phase) : Prop where
  sound : sound r.sink
  uncommitted : r.state = .mightCompress → Sink.isCommitted r.sink = false
  committed : r.state = .compressing → Sink.isCommitted r.sink = true ∨ ∃ phase ∈ now, phase.Leads r.session

section Telling

variable [Sink σ] (sound : σ → Prop) (r q : Response σ κ)

theorem tells_congr (now : Option Phase) (tells : r.Tells sound now) (state : q.state = r.state)
    (session : q.session = r.session)
    (sink : q.sink = r.sink) : q.Tells sound now := by
  refine ⟨sink ▸ tells.sound, ?_, ?_⟩
  · rw [state, sink]
    exact tells.uncommitted
  · rw [state, sink, session]
    exact tells.committed

omit r q in
theorem tells_told {r : Response σ κ} {now : Option Phase} (state : r.state ≠ .mightCompress) (here : sound r.sink)
    (told : r.state = .compressing → Sink.isCommitted r.sink = true) : r.Tells sound now :=
  ⟨here, fun might => (state might).elim, fun compressing => .inl (told compressing)⟩

omit r q in
theorem passing_tells {r : Response σ κ} {now : Option Phase} (state : r.state = .notCompressing)
    (here : sound r.sink) :
    r.Tells sound now :=
  tells_told sound (by simp [state]) here (by simp [state])

omit r q in
theorem finished_tells {r : Response σ κ} {now : Option Phase} (state : r.state = .finished) (here : sound r.sink) :
    r.Tells sound now :=
  tells_told sound (by simp [state]) here (by simp [state])

theorem unled_told (now : Option Phase) (unled : ∀ phase ∈ now, ¬ phase.Leads r.session) (tells : r.Tells sound now)
    (compressing : r.state = .compressing) : Sink.isCommitted r.sink = true := by
  refine (tells.committed compressing).resolve_right ?_
  rintro ⟨phase, present, leads⟩
  exact unled phase present leads

theorem idle_told (tells : r.Tells sound none) (compressing : r.state = .compressing) :
    Sink.isCommitted r.sink = true :=
  unled_told sound r none (fun phase present => (Option.not_mem_none phase present).elim) tells compressing

theorem idle_tells (now : Option Phase) (tells : r.Tells sound none) : r.Tells sound now :=
  ⟨tells.sound, tells.uncommitted, fun compressing => .inl (idle_told sound r tells compressing)⟩

theorem ended_tells (result : Sent) (now : Option Phase) (tells : r.Tells sound (some (.done result))) :
    r.Tells sound now := by
  refine ⟨tells.sound, tells.uncommitted, fun compressing => .inl (unled_told sound r _ ?_ tells compressing)⟩
  intro phase present leads
  cases present
  exact leads

section Stepping

variable [Deflate.Compressor κ] (here : sound r.sink)

include here

theorem after_write_tells (last : Bool) (content : Option Bytes) (result : Sent) (site : Site)
    (holds : r.Holds (.writing last content site)) (accepted : result = .ok () → Sink.isCommitted r.sink = true) :
    (r.afterWrite last result site).1.Tells sound (some (r.afterWrite last result site).2) := by
  have started := holds_started r _ holds
  cases result with
  | error e => cases site <;> exact finished_tells sound rfl here
  | ok done =>
      have committed := accepted rfl
      cases site with
      | passing | flushing =>
          cases last with
          | true => exact finished_tells sound rfl here
          | false => exact tells_told sound started here fun _ => committed
      | heading => exact tells_told sound started here fun _ => committed

theorem compress_tells (w : Write) (state : r.state = .compressing) (active : r.session.entry.isSome)
    (told : Sink.isCommitted r.sink = true ∨ r.session.buffer = none) :
    (r.compress w).1.Tells sound (some (r.compress w).2) := by
  obtain ⟨entry, held⟩ := Option.isSome_iff_exists.mp active
  have started : r.state ≠ .mightCompress := by simp [state]
  have flushes := Write.step_flushes w r.session r.resources entry held
  unfold compress
  generalize w.step r.session r.resources = p at flushes
  -- Without a buffer there is the header to hand on, so that only a flush is left.
  have committed (action : Action) (done : p.action = .ok action) (other : ∀ last, action ≠ .flush last) :
      Sink.isCommitted r.sink = true :=
    told.resolve_right fun unopened => by
      obtain ⟨last, rfl⟩ := flushes unopened action done
      exact other last rfl
  dsimp only
  cases done : p.action with
  | error reason => exact finished_tells sound rfl here
  | ok action =>
      cases action with
      | flush last => exact ⟨here, fun might => (started might).elim, fun _ => .inr ⟨_, rfl, trivial⟩⟩
      | idle => exact tells_told sound started here fun _ => committed _ done fun _ same => by cases same
      | succeeded => exact tells_told sound started here fun _ => committed _ done fun _ same => by cases same

variable (commits : Sink.Commits sound)

include commits

omit here in
theorem resume_tells (me : Nat) (phase : Phase) (holds : r.Holds phase) (mine : r.holder = some me)
    (tells : r.Tells sound (some phase)) : (r.resume me phase).1.Tells sound (some (r.resume me phase).2) := by
  cases phase with
  | waiting errand =>
      obtain ⟨rfl, -, -⟩ := holds
      rw [resume, if_pos mine]
      exact finished_tells sound rfl tells.sound
  | writing last content site =>
      exact after_write_tells sound (r.sent last content) (commits.keeps r.sink last content tells.sound)
        last content _ site
        (holds_congr r _ _ rfl rfl holds) (commits.accepts r.sink last content tells.sound)
  | compressing w =>
      refine compress_tells sound r tells.sound w holds.1 (settled_entry r holds.2 holds.1)
        ((tells.committed holds.1).imp_right ?_)
      rintro ⟨phase, present, leads⟩
      cases present
      exact leads
  | done result => exact holds.elim

theorem commit_tells (last : Bool) (content : Option Bytes) (buffer : r.session.buffer = none) :
    (r.commit last content).1.Tells sound (some (r.commit last content).2) := by
  rw [commit]
  cases r.judge r.head last content with
  | plain headers => exact passing_tells sound rfl (commits.edits _ _ here)
  | coded headers entry engines =>
      have unopened : (r.session.start { r.resources with engines } entry).1.buffer = none :=
        (Session.start_buffer r.session _ entry).trans buffer
      have decided : State.compressing ≠ .mightCompress := by decide
      dsimp only
      split
      · exact ⟨commits.edits _ _ here, fun might => (decided might).elim, fun _ => .inr ⟨_, rfl, trivial⟩⟩
      · exact ⟨commits.edits _ _ here, fun might => (decided might).elim, fun _ => .inr ⟨_, rfl, unopened⟩⟩

omit here in
theorem dispatch_tells (me : Nat) (last : Bool) (content : Option Bytes) (settled : r.Settled) (free : r.holder = none)
    (tells : r.Tells sound none) :
    (r.dispatch me last content).1.Tells sound (some (r.dispatch me last content).2) := by
  cases state : r.state with
  | mightCompress =>
      simp only [dispatch, state]
      rw [acquire_free ({ r with state := .committing } : Response σ κ) me _ free, run]
      exact commit_tells sound ({ r with state := .committing }.lock me) tells.sound commits last content
        (settled_empty r settled (by simp [state])).2
  | committing => simp [Settled, state] at settled
  | notCompressing =>
      simp only [dispatch, state, free, Option.isNone_none, if_true]
      exact passing_tells sound state tells.sound
  | compressing =>
      simp only [dispatch, state, free, Option.isNone_none, if_true]
      exact tells_told sound (by simp [lock, state]) tells.sound fun _ => idle_told sound r tells state
  | finished =>
      simp only [dispatch, state]
      exact finished_tells sound state tells.sound

omit here in
theorem start_tells (me : Nat) (call : Call) (settled : r.Settled) (free : r.holder = none)
    (tells : r.Tells sound none) :
    (r.start me call).1.Tells sound (some (r.start me call).2) := by
  have answered (result : Sent) : r.Tells sound (some (.done result)) := idle_tells sound r _ tells
  cases call with
  | write last content => exact dispatch_tells sound r commits me last _ settled free tells
  | succeeded =>
      rw [start]
      split
      · exact answered _
      · exact dispatch_tells sound { r with completed := true } commits me true none settled free
          ⟨tells.sound, tells.uncommitted, tells.committed⟩
  | failed =>
      rw [start]
      split
      · exact answered _
      · rw [acquire_free ({ r with completed := true } : Response σ κ) me _ free]
        exact finished_tells sound rfl tells.sound
  | noCompression =>
      rw [start]
      split
      · exact passing_tells sound rfl tells.sound
      · exact answered _
      · exact answered _

end Stepping

end Telling

end Response

namespace Calls

def now (c : Calls σ κ) : Option Phase := c.response.holder.bind fun i => c.phases[i]?

section Telling

variable [Sink σ] [Deflate.Compressor κ] (sound : σ → Prop) (commits : Sink.Commits sound) (c : Calls σ κ)
  (orderly : c.Orderly) (tells : c.response.Tells sound c.now)

include commits orderly tells

theorem begin_tells (call : Call) : (c.begin call).response.Tells sound (c.begin call).now := by
  cases holder : c.response.holder with
  | none =>
      obtain ⟨quiet, settled⟩ := orderly.free holder
      have before : c.now = none := by rw [now, holder, Option.bind_none]
      have enters := Response.start_enters c.response c.phases.length call settled holder quiet
      have after := Response.start_tells sound c.response commits c.phases.length call settled holder (before ▸ tells)
      simp only [begin]
      generalize c.response.start c.phases.length call = p at enters after
      rcases enters.result with ⟨⟨result, done⟩, -, free⟩ | ⟨-, mine⟩
      · rw [done] at after
        exact Response.ended_tells sound _ result _ after
      · have here : (⟨p.1, c.phases ++ [p.2]⟩ : Calls σ κ).now = some p.2 := by simp [now, mine]
        rw [here]
        exact after
  | some i =>
      obtain ⟨phase, present, -⟩ := orderly.held i holder
      have bounces :=
        Response.start_bounces c.response c.phases.length i call holder (holder_started c orderly i holder)
      simp only [begin]
      generalize c.response.start c.phases.length call = p at bounces
      have here : (⟨p.1, c.phases ++ [p.2]⟩ : Calls σ κ).now = c.now := by
        obtain ⟨bound, -⟩ := List.getElem?_eq_some_iff.mp present
        simp only [now, bounces.holder, holder, Option.bind_some]
        exact List.getElem?_append_left bound
      rw [here]
      exact Response.tells_congr sound c.response p.1 c.now tells bounces.state bounces.session bounces.sink

theorem advance_tells (i : Nat) : (c.advance i).response.Tells sound (c.advance i).now := by
  by_cases mine : c.response.holder = some i
  · obtain ⟨phase, present, holds⟩ := orderly.held i mine
    have before : c.now = some phase := by rw [now, mine, Option.bind_some, present]
    have proceeds := Response.resume_proceeds c.response i phase holds mine
    have after := Response.resume_tells sound c.response commits i phase holds mine (before ▸ tells)
    simp only [advance, present]
    generalize c.response.resume i phase = p at proceeds after
    rcases proceeds.result with ⟨⟨result, done⟩, -⟩ | ⟨-, kept, -⟩
    · rw [done] at after
      exact Response.ended_tells sound _ result _ after
    · have here : (⟨p.1, c.phases.set i p.2⟩ : Calls σ κ).now = some p.2 := by
        simp [now, kept, mine, List.getElem?_set_self', present]
      rw [here]
      exact after
  · rw [unchanged_by_idle c orderly i mine]
    exact tells

theorem play_tells (moves : List Move) : (c.play moves).response.Tells sound (c.play moves).now := by
  induction moves generalizing c with
  | nil => exact tells
  | cons m rest ih =>
      refine ih (c.move m) (move_advances c m orderly).orderly ?_
      cases m with
      | begin call => exact begin_tells sound commits c orderly tells call
      | advance i => exact advance_tells sound commits c orderly tells i

end Telling

-- While no call is under way the answer is that of the sink, but for a response at its end, which is always told
-- to be committed. Where the sink is not, it has accepted nothing.
theorem committed_told [Sink σ] [Deflate.Compressor κ] (sound : σ → Prop) (commits : Sink.Commits sound)
    (r : Response (Logged σ) κ) (moves : List Move) (fresh : r.IsFresh) (here : sound r.sink.sink)
    (unwritten : r.sink.log = [])
    (uncommitted : Sink.isCommitted r.sink = false) (quiet : ((new r).play moves).IsQuiet) :
    let q := ((new r).play moves).response
    (q.isCommitted = true ↔ q.state = .finished ∨ Sink.isCommitted q.sink = true) ∧
    (Sink.isCommitted q.sink = false → ∀ d ∈ q.sink.log, d.result ≠ .ok ()) := by
  intro q
  have start := new_orderly r fresh
  have begins : (new r).response.Tells (Logged.IsFit sound) (new r).now := by
    refine ⟨⟨here, fun _ => ?_⟩, fun _ => uncommitted, fun compressing => ?_⟩
    · rw [show (new r).response.sink.log = [] from unwritten]
      exact fun _ member => (List.not_mem_nil member).elim
    · cases fresh.state.symm.trans compressing
  have orderly := (play_advances (new r) moves start).orderly
  have free : q.holder = none := (quiet_free _ orderly).mp quiet
  have settled : q.Settled := quiet_settled _ orderly quiet
  have idle : ((new r).play moves).now = none := congrArg (Option.bind · _) free
  have tells : q.Tells (Logged.IsFit sound) none :=
    idle ▸ play_tells _ (logged_commits sound commits) (new r) start begins moves
  refine ⟨?_, tells.sound.unaccepted⟩
  unfold Response.isCommitted
  cases state : q.state with
  | mightCompress => simp [tells.uncommitted state]
  | notCompressing => simp [free]
  | committing => simp [Response.Settled, state] at settled
  | compressing =>
      have committed := Response.idle_told _ q tells state
      simp [committed]
  | finished => simp

def refused : Calls (Logged Recorder) Deflate.Encoder :=
  (new (.new ⟨{ Recorder.new .empty with failing := true }, []⟩ ⟨[], 0⟩ ⟨.new 1 6, .standard⟩)).play
    [.begin (.write false none), .advance 0]

theorem refused_quiet : refused.IsQuiet := by
  have phases : refused.phases = [.done (.error (.aborted "peer gone".toList))] := by rfl
  intro phase member
  rw [phases] at member
  obtain rfl := List.mem_singleton.mp member
  trivial

theorem committed_told_refused :
    refused.IsQuiet ∧ refused.response.isCommitted = true ∧ Sink.isCommitted refused.response.sink = false ∧
    refused.response.sink.log ≠ [] ∧ ∀ d ∈ refused.response.sink.log, d.result ≠ .ok () := by
  obtain ⟨told, unaccepted⟩ := committed_told Recorder.IsFit recorder_commits
    (.new ⟨{ Recorder.new .empty with failing := true }, []⟩ ⟨[], 0⟩ ⟨.new 1 6, .standard⟩)
    [.begin (.write false none), .advance 0] (Response.new_fresh _ _ _) (fun ended => by cases ended)
      rfl rfl refused_quiet
  have finished : refused.response.state = .finished := by decide +kernel
  have uncommitted : Sink.isCommitted refused.response.sink = false := by decide +kernel
  exact ⟨refused_quiet, told.mpr (.inl finished), uncommitted, List.cons_ne_nil _ _, unaccepted uncommitted⟩

theorem abandoned_committed :
    ((new trial).play [.begin .failed]).IsQuiet ∧ ((new trial).play [.begin .failed]).response.isCommitted = true ∧
    Sink.isCommitted ((new trial).play [.begin .failed]).response.sink = false := by
  refine ⟨?_, rfl, rfl⟩
  intro phase member
  obtain rfl : phase = .done (.ok ()) := List.mem_singleton.mp member
  trivial

end Calls

end Gzip

end Gateway
