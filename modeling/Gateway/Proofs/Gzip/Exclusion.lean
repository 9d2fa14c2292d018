import Gateway.Gzip.Calls
import Gateway.Proofs.Gzip.Session
import Mathlib.Logic.Relation

set_option autoImplicit false

namespace Gateway.Gzip

namespace State

inductive Next : State → State → Prop where
  | decline : Next .mightCompress .notCompressing
  | commit : Next .mightCompress .committing
  | pass : Next .committing .notCompressing
  | code : Next .committing .compressing
  | finish (s : State) : Next s .finished

abbrev Leads : State → State → Prop := Relation.ReflTransGen Next

theorem leads_finished (s : State) : Leads s .finished := .single (.finish s)

theorem finished_stays (s : State) (path : Leads .finished s) : s = .finished := by
  induction path with
  | refl => rfl
  | tail _ next ih =>
      subst ih
      cases next
      rfl

theorem leads_to_might_compress (s : State) (path : Leads s .mightCompress) : s = .mightCompress := by
  cases path with
  | refl => rfl
  | tail _ next => cases next

end State

variable {σ κ : Type}

def Phase.IsDone : Phase → Prop
  | .done _ => True
  | _ => False

namespace Response

def Settled (r : Response σ κ) : Prop :=
  match r.state with
  | .committing => False
  | .compressing => r.session.entry.isSome
  | _ => r.session.entry = none ∧ r.session.buffer = none

-- What the call that has the lock stands on. While the last output is on its way the entry has
-- already gone back.
def Holds (r : Response σ κ) : Phase → Prop
  | .waiting errand => errand = .abandon ∧ r.state ≠ .mightCompress ∧ r.Settled
  | .writing _ _ .passing => r.state = .notCompressing ∧ r.Settled
  | .writing _ _ .heading => r.state = .compressing ∧ r.Settled
  | .writing true _ (.flushing _) => r.state = .compressing ∧ r.session.entry = none
  | .writing false _ (.flushing _) => r.state = .compressing ∧ r.Settled
  | .compressing _ => r.state = .compressing ∧ r.Settled
  | .done _ => False

theorem settled_congr (r q : Response σ κ) (state : q.state = r.state) (session : q.session = r.session) :
    q.Settled ↔ r.Settled := by
  simp only [Settled, state, session]

theorem holds_congr (r q : Response σ κ) (phase : Phase) (state : q.state = r.state)
    (session : q.session = r.session) (holds : r.Holds phase) : q.Holds phase := by
  have same := settled_congr r q state session
  cases phase with
  | waiting errand => exact ⟨holds.1, by rw [state]; exact holds.2.1, same.mpr holds.2.2⟩
  | writing last content site =>
      cases site with
      | passing => exact ⟨state.trans holds.1, same.mpr holds.2⟩
      | heading => exact ⟨state.trans holds.1, same.mpr holds.2⟩
      | flushing w =>
          cases last with
          | true => exact ⟨state.trans holds.1, by rw [session]; exact holds.2⟩
          | false => exact ⟨state.trans holds.1, same.mpr holds.2⟩
  | compressing w => exact ⟨state.trans holds.1, same.mpr holds.2⟩
  | done result => exact holds

theorem holds_started (r : Response σ κ) (phase : Phase) (holds : r.Holds phase) : r.state ≠ .mightCompress := by
  cases phase with
  | waiting errand => exact holds.2.1
  | writing last content site =>
      cases site with
      | flushing w => cases last <;> simp [holds.1]
      | _ => simp [holds.1]
  | compressing w => simp [holds.1]
  | done result => exact holds.elim

theorem settled_of_compressing (r : Response σ κ) (state : r.state = .compressing)
    (active : r.session.entry.isSome) : r.Settled := by
  simpa only [Settled, state] using active

theorem settled_of_empty (r : Response σ κ) (state : r.state ≠ .committing) (running : r.state ≠ .compressing)
    (entry : r.session.entry = none) (buffer : r.session.buffer = none) : r.Settled := by
  cases current : r.state <;> simp_all [Settled]

theorem settled_entry (r : Response σ κ) (settled : r.Settled) (state : r.state = .compressing) :
    r.session.entry.isSome := by
  simpa only [Settled, state] using settled

theorem settled_empty (r : Response σ κ) (settled : r.Settled) (state : r.state ≠ .compressing) :
    r.session.entry = none ∧ r.session.buffer = none := by
  cases current : r.state <;> simp_all [Settled]

-- A step of the call with the lock either leaves the call with the lock, or ends it and hands the
-- lock on.
structure Proceeds (r : Response σ κ) (p : Response σ κ × Phase) : Prop where
  path : r.state.Leads p.1.state
  result : ((∃ result, p.2 = .done result) ∧ p.1.Settled ∧ p.1.state ≠ .mightCompress ∧
      p.1.holder = r.queue.head? ∧ p.1.queue = r.queue.tail) ∨
    (p.1.Holds p.2 ∧ p.1.holder = r.holder ∧ p.1.queue = r.queue)

theorem leave_proceeds (r q : Response σ κ) (result : Sent) (path : r.state.Leads q.state)
    (settled : q.Settled) (started : q.state ≠ .mightCompress) (queue : q.queue = r.queue) :
    Proceeds r (q.leave result) := by
  refine ⟨path, .inl ⟨⟨result, rfl⟩, ?_, started, ?_, ?_⟩⟩
  · exact (settled_congr q q.unlock rfl rfl).mpr settled
  · exact congrArg List.head? queue
  · exact congrArg List.tail queue

section Holding

variable [Deflate.Compressor κ]

theorem finish_settled (r : Response σ κ) : r.finish.Settled :=
  ⟨Session.released_entry r.session r.resources, Session.released_buffer r.session r.resources⟩

theorem finish_leaves (r q : Response σ κ) (result : Sent) (queue : q.queue = r.queue) :
    Proceeds r (q.finish.leave result) :=
  leave_proceeds r q.finish result (State.leads_finished r.state) (finish_settled q) nofun queue

theorem compress_proceeds (r : Response σ κ) (w : Write) (state : r.state = .compressing) (settled : r.Settled) :
    Proceeds r (r.compress w) := by
  have kept := Write.step_keeps_entry w r.session r.resources (settled_entry r settled state)
  have path : r.state.Leads r.state := .refl
  unfold compress
  generalize w.step r.session r.resources = p at kept
  unfold Write.KeepsEntry at kept
  dsimp only
  cases action : p.action with
  | error reason => exact finish_leaves r _ _ rfl
  | ok a =>
      rw [action] at kept
      cases a with
      | flush last =>
          cases last with
          | true => exact ⟨path, .inr ⟨⟨state, kept⟩, rfl, rfl⟩⟩
          | false => exact ⟨path, .inr ⟨⟨state, settled_of_compressing _ state kept⟩, rfl, rfl⟩⟩
      | idle => exact ⟨path, .inr ⟨⟨state, settled_of_compressing _ state kept⟩, rfl, rfl⟩⟩
      | succeeded =>
          exact leave_proceeds r _ _ path (settled_of_compressing _ state kept) (by simp [state]) rfl

theorem after_write_proceeds (r q : Response σ κ) (last : Bool) (content : Option Bytes) (result : Sent) (site : Site)
    (holds : q.Holds (.writing last content site)) (state : q.state = r.state)
    (holder : q.holder = r.holder) (queue : q.queue = r.queue) :
    Proceeds r (q.afterWrite last result site) := by
  cases site with
  | passing =>
      have ended : ({ q with state := .finished } : Response σ κ).Settled :=
        settled_empty q holds.2 (by simp [holds.1])
      cases result with
      | error e => exact leave_proceeds r _ _ (State.leads_finished _) ended nofun queue
      | ok done =>
          cases last with
          | true => exact leave_proceeds r _ _ (State.leads_finished _) ended nofun queue
          | false => exact leave_proceeds r q _ (state ▸ .refl) holds.2 (by simp [holds.1]) queue
  | heading =>
      cases result with
      | error e => exact finish_leaves r q _ queue
      | ok done => exact leave_proceeds r q _ (state ▸ .refl) holds.2 (by simp [holds.1]) queue
  | flushing w =>
      cases result with
      | error e => exact finish_leaves r q _ queue
      | ok done =>
          cases last with
          | false => exact ⟨state ▸ .refl, .inr ⟨holds, holder, queue⟩⟩
          | true =>
              refine leave_proceeds r _ _ (State.leads_finished _) ⟨?_, ?_⟩ nofun queue
              · exact (Session.release_buffer_entry q.session q.resources).trans holds.2
              · exact Session.release_buffer_buffer q.session q.resources

end Holding

variable [Sink σ] [Deflate.Compressor κ]

theorem commit_proceeds (r : Response σ κ) (last : Bool) (content : Option Bytes) (state : r.state = .committing)
    (entry : r.session.entry = none) (buffer : r.session.buffer = none) :
    Proceeds r (r.commit last content) := by
  have passed : r.state.Leads .notCompressing := state ▸ .single .pass
  have coded : r.state.Leads .compressing := state ▸ .single .code
  unfold commit
  cases r.judge r.head last content with
  | plain headers => exact ⟨passed, .inr ⟨⟨rfl, entry, buffer⟩, rfl, rfl⟩⟩
  | coded headers e engines =>
      dsimp only
      split
      · exact ⟨coded, .inr ⟨⟨rfl, rfl⟩, rfl, rfl⟩⟩
      · exact ⟨coded, .inr ⟨⟨rfl, rfl⟩, rfl, rfl⟩⟩

theorem resume_proceeds (r : Response σ κ) (me : Nat) (phase : Phase) (holds : r.Holds phase)
    (holder : r.holder = some me) : Proceeds r (r.resume me phase) := by
  cases phase with
  | waiting errand =>
      obtain ⟨rfl, -, -⟩ := holds
      rw [resume, if_pos holder]
      exact finish_leaves r r _ rfl
  | writing last content site =>
      exact after_write_proceeds r _ last content _ site (holds_congr r _ _ rfl rfl holds) rfl rfl rfl
  | compressing w => exact compress_proceeds r w holds.1 holds.2
  | done result => exact holds.elim

theorem acquire_free (r : Response σ κ) (me : Nat) (errand : Errand) (free : r.holder = none) :
    r.acquire me errand = (r.lock me).run errand := by
  simp [acquire, free]

theorem acquire_taken (r : Response σ κ) (me other : Nat) (errand : Errand) (taken : r.holder = some other) :
    r.acquire me errand = ({ r with queue := r.queue ++ [me] }, .waiting errand) := by
  simp [acquire, taken]

structure Enters (r : Response σ κ) (me : Nat) (p : Response σ κ × Phase) : Prop where
  path : r.state.Leads p.1.state
  queue : p.1.queue = []
  result : ((∃ result, p.2 = .done result) ∧ p.1.Settled ∧ p.1.holder = none) ∨
    (p.1.Holds p.2 ∧ p.1.holder = some me)

omit [Sink σ] [Deflate.Compressor κ] in
theorem enters_done (r q : Response σ κ) (me : Nat) (result : Sent) (path : r.state.Leads q.state)
    (settled : q.Settled) (free : q.holder = none) (quiet : q.queue = []) : Enters r me (q, .done result) :=
  ⟨path, quiet, .inl ⟨⟨result, rfl⟩, settled, free⟩⟩

omit [Sink σ] [Deflate.Compressor κ] in
theorem proceeds_enters (r q : Response σ κ) (me : Nat) (p : Response σ κ × Phase) (path : r.state.Leads q.state)
    (holder : q.holder = some me) (quiet : q.queue = []) (step : Proceeds q p) : Enters r me p := by
  refine ⟨path.trans step.path, ?_, ?_⟩
  · rcases step.result with ⟨-, -, -, -, queue⟩ | ⟨-, -, queue⟩ <;> simp [queue, quiet]
  · rcases step.result with ⟨ended, settled, -, free, -⟩ | ⟨holds, same, -⟩
    · exact .inl ⟨ended, settled, by rw [free, quiet]; rfl⟩
    · exact .inr ⟨holds, same.trans holder⟩

theorem dispatch_enters (r : Response σ κ) (me : Nat) (last : Bool) (content : Option Bytes)
    (settled : r.Settled) (free : r.holder = none) (quiet : r.queue = []) :
    Enters r me (r.dispatch me last content) := by
  cases state : r.state with
  | mightCompress =>
      obtain ⟨entry, buffer⟩ := settled_empty r settled (by simp [state])
      have first : r.state.Leads .committing := state ▸ .single .commit
      simp only [dispatch, state]
      rw [acquire_free ({ r with state := .committing } : Response σ κ) me _ free]
      have step := commit_proceeds ({ r with state := .committing }.lock me) last content rfl entry buffer
      exact proceeds_enters r ({ r with state := .committing }.lock me) me _ first rfl quiet step
  | committing => simp [Settled, state] at settled
  | notCompressing =>
      simp only [dispatch, state, free, Option.isNone_none, if_true]
      exact ⟨.refl, quiet, .inr ⟨⟨state, settled⟩, rfl⟩⟩
  | compressing =>
      simp only [dispatch, state, free, Option.isNone_none, if_true]
      exact ⟨.refl, quiet, .inr ⟨⟨state, settled⟩, rfl⟩⟩
  | finished =>
      simp only [dispatch, state]
      exact enters_done r r me _ .refl settled free quiet

theorem start_enters (r : Response σ κ) (me : Nat) (call : Call) (settled : r.Settled)
    (free : r.holder = none) (quiet : r.queue = []) : Enters r me (r.start me call) := by
  cases call with
  | write last content => exact dispatch_enters r me last _ settled free quiet
  | succeeded =>
      rw [start]
      split
      · exact enters_done r r me _ .refl settled free quiet
      · have same := dispatch_enters { r with completed := true } me true none settled free quiet
        exact ⟨same.path, same.queue, same.result⟩
  | failed =>
      rw [start]
      split
      · exact enters_done r r me _ .refl settled free quiet
      · rw [acquire_free ({ r with completed := true } : Response σ κ) me _ free]
        exact proceeds_enters r ({ r with completed := true }.lock me) me _ .refl rfl quiet (finish_leaves _ _ _ rfl)
  | noCompression =>
      rw [start]
      split
      · rename_i state
        refine enters_done r _ me _ (state ▸ .single .decline) ?_ free quiet
        exact settled_empty r settled (by simp [state])
      · exact enters_done r r me _ .refl settled free quiet
      · exact enters_done r r me _ .refl settled free quiet

structure Bounces (r : Response σ κ) (me : Nat) (p : Response σ κ × Phase) : Prop where
  state : p.1.state = r.state
  session : p.1.session = r.session
  sink : p.1.sink = r.sink
  holder : p.1.holder = r.holder
  result : ((∃ result, p.2 = .done result) ∧ p.1.queue = r.queue) ∨
    (p.2 = .waiting .abandon ∧ p.1.queue = r.queue ++ [me])

theorem dispatch_bounces (r : Response σ κ) (me other : Nat) (last : Bool) (content : Option Bytes)
    (taken : r.holder = some other) (started : r.state ≠ .mightCompress) :
    (r.dispatch me last content).1 = r ∧ ∃ result, (r.dispatch me last content).2 = .done result := by
  cases state : r.state with
  | mightCompress => exact absurd state started
  | notCompressing | committing | compressing | finished => simp [dispatch, state, taken]

theorem start_bounces (r : Response σ κ) (me other : Nat) (call : Call) (taken : r.holder = some other)
    (started : r.state ≠ .mightCompress) : Bounces r me (r.start me call) := by
  cases call with
  | write last content =>
      obtain ⟨same, ended⟩ := dispatch_bounces r me other last (content.filter (!·.isEmpty)) taken started
      rw [start]
      exact ⟨by rw [same], by rw [same], by rw [same], by rw [same], .inl ⟨ended, by rw [same]⟩⟩
  | succeeded =>
      rw [start]
      split
      · exact ⟨rfl, rfl, rfl, rfl, .inl ⟨⟨_, rfl⟩, rfl⟩⟩
      · obtain ⟨same, ended⟩ := dispatch_bounces { r with completed := true } me other true none taken started
        exact ⟨by rw [same], by rw [same], by rw [same], by rw [same], .inl ⟨ended, by rw [same]⟩⟩
  | failed =>
      rw [start]
      split
      · exact ⟨rfl, rfl, rfl, rfl, .inl ⟨⟨_, rfl⟩, rfl⟩⟩
      · rw [acquire_taken ({ r with completed := true } : Response σ κ) me other _ taken]
        exact ⟨rfl, rfl, rfl, rfl, .inr ⟨rfl, rfl⟩⟩
  | noCompression =>
      rw [start]
      split
      · contradiction
      · exact ⟨rfl, rfl, rfl, rfl, .inl ⟨⟨_, rfl⟩, rfl⟩⟩
      · exact ⟨rfl, rfl, rfl, rfl, .inl ⟨⟨_, rfl⟩, rfl⟩⟩

theorem resume_finished (r : Response σ κ) (me : Nat) (phase : Phase) (holds : r.Holds phase)
    (ended : r.state = .finished) : (r.resume me phase).1.sink = r.sink := by
  cases phase with
  | waiting errand =>
      obtain ⟨rfl, -, -⟩ := holds
      rw [resume]
      split <;> rfl
  | writing last content site =>
      cases site with
      | flushing w => cases last <;> simp [Holds, ended] at holds
      | _ => simp [Holds, ended] at holds
  | compressing w => simp [Holds, ended] at holds
  | done result => exact holds.elim

theorem dispatch_finished (r : Response σ κ) (me : Nat) (last : Bool) (content : Option Bytes)
    (ended : r.state = .finished) : (r.dispatch me last content).1 = r := by
  simp only [dispatch, ended]

theorem start_finished (r : Response σ κ) (me : Nat) (call : Call) (ended : r.state = .finished) :
    (r.start me call).1.sink = r.sink := by
  cases call with
  | write last content => rw [start, dispatch_finished r me last _ ended]
  | succeeded =>
      rw [start]
      split
      · rfl
      · rw [dispatch_finished _ me true none (by exact ended)]
  | failed =>
      rw [start]
      split
      · rfl
      · unfold acquire
        split <;> rfl
  | noCompression => simp only [start, ended]

end Response

end Gateway.Gzip
