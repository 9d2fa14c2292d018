import Gateway.Deflate.Encoder
import Gateway.Proofs.Gzip.Lifecycle
import Gateway.Sink.Recorder

set_option autoImplicit false

namespace Gateway.Gzip

variable {σ κ : Type}

def Response.under (r : Response σ κ) (policy : Policy) (vary : Option Header.Value) (tags : Option Text) :
    Response σ κ :=
  { r with policy, vary, requestTags := tags }

def Response.isUndecided (r : Response σ κ) : Bool := r.state = .mightCompress && r.holder.isNone

namespace Calls

def under (c : Calls σ κ) (policy : Policy) (vary : Option Header.Value) (tags : Option Text) : Calls σ κ :=
  { c with response := c.response.under policy vary tags }

def decides (c : Calls σ κ) : Move → Bool
  | .begin (.write _ _) => c.response.isUndecided
  | .begin .succeeded => !c.response.completed && c.response.isUndecided
  | .begin .failed => false
  | .begin .noCompression => false
  | .advance i =>
      match c.phases[i]? with
      | some (.waiting (.commit _ _)) => c.response.holder = some i
      | _ => false

end Calls

section Blind

variable [Sink σ] [Deflate.Compressor κ]
variable (r : Response σ κ) (policy : Policy) (vary : Option Header.Value) (tags : Option Text)

namespace Response

def ruled (p : Response σ κ × Phase) : Response σ κ × Phase := (p.1.under policy vary tags, p.2)

omit [Sink σ] in
theorem compress_blind (w : Write) :
    (r.under policy vary tags).compress w = ruled policy vary tags (r.compress w) := by
  unfold compress
  dsimp only [under]
  generalize w.step r.session r.resources = p
  cases p.action with
  | error reason => rfl
  | ok action => cases action <;> rfl

omit [Sink σ] in
theorem after_write_blind (last : Bool) (result : Sent) (site : Site) :
    (r.under policy vary tags).afterWrite last result site =
      ruled policy vary tags (r.afterWrite last result site) := by
  cases site <;> cases result <;> cases last <;> rfl

theorem acquire_blind (me : Nat) (errand : Errand)
    (decided : ∀ last content, errand = .commit last content → r.holder.isNone = false) :
    (r.under policy vary tags).acquire me errand = ruled policy vary tags (r.acquire me errand) := by
  cases errand with
  | abandon => cases free : r.holder <;> simp [acquire, free, under, ruled, run, finish, leave, lock, unlock]
  | commit last content =>
      have taken := decided last content rfl
      simp only [acquire, under, taken]
      rfl

theorem dispatch_blind (me : Nat) (last : Bool) (content : Option Bytes) (decided : r.isUndecided = false) :
    (r.under policy vary tags).dispatch me last content = ruled policy vary tags (r.dispatch me last content) := by
  cases state : r.state with
  | mightCompress =>
      have taken : r.holder.isNone = false := by simpa [isUndecided, state] using decided
      have same := acquire_blind { r with state := .committing } policy vary tags me (.commit last content)
        fun _ _ _ => taken
      simpa only [dispatch, under, state] using same
  | committing => simp [dispatch, under, ruled, state]
  | notCompressing => cases free : r.holder <;> simp [dispatch, under, ruled, state, free, lock, pass]
  | compressing => cases free : r.holder <;> simp [dispatch, under, ruled, state, free, lock]
  | finished => simp [dispatch, under, ruled, state]

end Response

namespace Calls

variable (c : Calls σ κ)

theorem start_blind (call : Call) (undecided : c.decides (.begin call) = false) :
    (c.response.under policy vary tags).start c.phases.length call =
      Response.ruled policy vary tags (c.response.start c.phases.length call) := by
  cases call with
  | write last content => exact Response.dispatch_blind _ policy vary tags _ last _ undecided
  | succeeded =>
      cases completed : c.response.completed with
      | true => simp [Response.start, Response.under, Response.ruled, completed]
      | false =>
          have decided : c.response.isUndecided = false := by simpa [decides, completed] using undecided
          have same := Response.dispatch_blind { c.response with completed := true } policy vary tags
            c.phases.length true none decided
          simpa [Response.start, Response.under, completed] using same
  | failed =>
      cases completed : c.response.completed with
      | true => simp [Response.start, Response.under, Response.ruled, completed]
      | false =>
          have same := Response.acquire_blind { c.response with completed := true } policy vary tags
            c.phases.length .abandon fun _ _ other => by cases other
          simpa [Response.start, Response.under, completed] using same
  | noCompression =>
      cases state : c.response.state <;> simp [Response.start, Response.under, Response.ruled, state]

theorem resume_blind (i : Nat) (phase : Phase) (present : c.phases[i]? = some phase)
    (undecided : c.decides (.advance i) = false) :
    (c.response.under policy vary tags).resume i phase =
      Response.ruled policy vary tags (c.response.resume i phase) := by
  cases phase with
  | waiting errand =>
      by_cases mine : c.response.holder = some i
      · cases errand with
        | commit last content => simp [decides, present, mine] at undecided
        | abandon =>
            simp only [Response.resume, Response.under, mine, if_true]
            rfl
      · rw [Response.resume, Response.resume, if_neg mine, if_neg (by exact mine)]
        rfl
  | writing last content site =>
      exact Response.after_write_blind { c.response with sink := (Sink.write c.response.sink last content).1 }
        policy vary tags last (Sink.write c.response.sink last content).2 site
  | compressing w => exact Response.compress_blind _ policy vary tags w
  | done result => rfl

theorem move_blind (m : Move) (undecided : c.decides m = false) :
    (c.under policy vary tags).move m = (c.move m).under policy vary tags := by
  cases m with
  | begin call =>
      have same := start_blind policy vary tags c call undecided
      simp only [move, begin, under, same]
      rfl
  | advance i =>
      cases present : c.phases[i]? with
      | none => simp only [move, advance, under, present]
      | some phase =>
          have same := resume_blind policy vary tags c i phase present undecided
          simp only [move, advance, under, present, same]
          rfl

end Calls

end Blind

namespace Calls

variable [Sink σ] [Deflate.Compressor κ]

def decisions (c : Calls σ κ) : List Move → Nat
  | [] => 0
  | m :: rest => (if c.decides m then 1 else 0) + (c.move m).decisions rest

theorem dispatch_decides (r : Response σ κ) (me : Nat) (last : Bool) (content : Option Bytes)
    (settled : r.Settled) (undecided : r.isUndecided) : (r.dispatch me last content).1.state ≠ .mightCompress := by
  obtain ⟨state, free⟩ : r.state = .mightCompress ∧ r.holder = none := by simpa [Response.isUndecided] using undecided
  obtain ⟨entry, buffer⟩ := Response.settled_empty r settled (by simp [state])
  simp only [Response.dispatch, state]
  rw [Response.acquire_free ({ r with state := .committing } : Response σ κ) me _ free]
  intro back
  have step := Response.commit_proceeds ({ r with state := .committing }.lock me) last content rfl entry buffer
  have path : State.Leads .committing .mightCompress := back ▸ step.path
  cases State.leads_to_might_compress _ path

theorem decides_first (c : Calls σ κ) (m : Move) (orderly : c.Orderly) (deciding : c.decides m) :
    c.response.state = .mightCompress ∧ (c.move m).response.state ≠ .mightCompress := by
  have settled (undecided : c.response.isUndecided) : c.response.state = .mightCompress ∧ c.response.Settled := by
    obtain ⟨state, free⟩ : c.response.state = .mightCompress ∧ c.response.holder = none := by
      simpa [Response.isUndecided] using undecided
    exact ⟨state, (orderly.free free).2⟩
  cases m with
  | begin call =>
      cases call with
      | write last content =>
          obtain ⟨state, rest⟩ := settled deciding
          exact ⟨state, dispatch_decides c.response _ last _ rest deciding⟩
      | succeeded =>
          obtain ⟨completed, undecided⟩ : c.response.completed = false ∧ c.response.isUndecided := by
            simpa [decides] using deciding
          obtain ⟨state, rest⟩ := settled undecided
          refine ⟨state, ?_⟩
          have decided :=
            dispatch_decides { c.response with completed := true } c.phases.length true none rest undecided
          simpa [move, begin, Response.start, completed] using decided
      | failed => simp [decides] at deciding
      | noCompression => simp [decides] at deciding
  | advance i =>
      -- Only one that wants to abandon the response ever waits for the lock.
      simp only [decides] at deciding
      split at deciding
      · rename_i last content present
        obtain ⟨phase, same, holds⟩ := orderly.held i (by simpa using deciding)
        obtain rfl : .waiting (.commit last content) = phase := by simpa [present] using same
        cases holds.1
      · contradiction

theorem decided_once (c : Calls σ κ) (moves : List Move) (orderly : c.Orderly) :
    c.decisions moves ≤ if c.response.state = .mightCompress then 1 else 0 := by
  induction moves generalizing c with
  | nil => simp [decisions]
  | cons m rest ih =>
      have step := move_advances c m orderly
      have later := ih (c.move m) step.orderly
      rw [decisions]
      by_cases deciding : c.decides m
      · obtain ⟨before, after⟩ := decides_first c m orderly deciding
        rw [if_neg after] at later
        simp only [deciding, before, if_true]
        omega
      · simp only [deciding]
        by_cases state : c.response.state = .mightCompress
        · rw [if_pos state]
          split at later <;> simp <;> omega
        · have past : (c.move m).response.state ≠ .mightCompress := fun back =>
            state (State.leads_to_might_compress _ (back ▸ step.path))
          simp_all

def IsQuiet (c : Calls σ κ) : Prop := ∀ phase ∈ c.phases, phase.IsDone

omit [Sink σ] [Deflate.Compressor κ] in
theorem quiet_settled (c : Calls σ κ) (orderly : c.Orderly) (quiet : c.IsQuiet) : c.response.Settled := by
  cases taken : c.response.holder with
  | none => exact (orderly.free taken).2
  | some i =>
      obtain ⟨phase, present, holds⟩ := orderly.held i taken
      have ended := quiet phase (List.mem_of_getElem? present)
      cases phase with
      | done result => exact holds.elim
      | _ => exact ended.elim

omit [Sink σ] [Deflate.Compressor κ] in
theorem finished_settled (c : Calls σ κ) (orderly : c.Orderly) (ended : c.response.state = .finished) :
    c.response.Settled := by
  cases taken : c.response.holder with
  | none => exact (orderly.free taken).2
  | some i =>
      obtain ⟨phase, present, holds⟩ := orderly.held i taken
      cases phase with
      | waiting errand => exact holds.2.2
      | writing last content site =>
          cases site with
          | flushing w => cases last <;> simp [Response.Holds, ended] at holds
          | _ => exact holds.2
      | compressing w => exact holds.2
      | done result => exact holds.elim

theorem course (r : Response σ κ) (moves : List Move) (fresh : r.IsFresh) :
    let c := (new r).play moves
    (∀ m, c.response.state.Leads (c.move m).response.state) ∧
    (c.response.state = .finished → ∀ later,
      (c.play later).response.state = .finished ∧ (c.play later).response.sink = c.response.sink) ∧
    ((new r).decisions moves ≤ 1 ∧ ∀ m, c.decides m = false → ∀ policy vary tags,
      (c.under policy vary tags).move m = (c.move m).under policy vary tags) ∧
    (c.IsQuiet → (c.response.session.entry.isSome ↔ c.response.state = .compressing)) ∧
    (c.response.state = .finished → c.response.session.entry = none ∧ c.response.session.buffer = none) := by
  intro c
  have start : (new r).Orderly := new_orderly r fresh
  have orderly : c.Orderly := (play_advances (new r) moves start).orderly
  refine ⟨?_, ?_, ⟨?_, ?_⟩, ?_, ?_⟩
  · exact fun m => (move_advances c m orderly).path
  · intro ended later
    have run := play_advances c later orderly
    exact ⟨State.finished_stays _ (ended ▸ run.path), run.ended ended⟩
  · have once := decided_once (new r) moves start
    rwa [if_pos (by exact fresh.state)] at once
  · exact fun m undecided policy vary tags => move_blind policy vary tags c m undecided
  · intro quiet
    have settled := quiet_settled c orderly quiet
    constructor
    · intro active
      refine Decidable.byContradiction fun running => ?_
      simp [(Response.settled_empty c.response settled running).1] at active
    · exact Response.settled_entry c.response settled
  · intro ended
    exact Response.settled_empty c.response (finished_settled c orderly ended) (by simp [ended])

def trial : Response Recorder Deflate.Encoder := .new (.new .empty) ⟨[], 0⟩ ⟨.new 1 6, .standard⟩

def abandonment : List Move :=
  [.begin (.write false none), .begin .failed, .advance 0, .begin .succeeded, .advance 1]

theorem course_abandoned :
    trial.IsFresh ∧ (new trial).decisions abandonment ≤ 1 ∧
    ((new trial).play abandonment).response.state = .finished ∧
    ((new trial).play abandonment).response.session.entry = none := by
  have fresh : trial.IsFresh := Response.new_fresh _ _ _
  obtain ⟨-, -, ⟨once, -⟩, -, empty⟩ := course trial abandonment fresh
  have ended : ((new trial).play abandonment).response.state = .finished := by decide +kernel
  exact ⟨fresh, once, ended, (empty ended).1⟩

end Calls

end Gateway.Gzip
