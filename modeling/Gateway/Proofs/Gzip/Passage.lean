import Gateway.Deflate.Encoder
import Gateway.Proofs.Gzip.Lifecycle
import Gateway.Proofs.Gzip.Turns
import Gateway.Proofs.Sink.Logged

set_option autoImplicit false

namespace Gateway.Gzip

variable {σ κ : Type}

namespace Response

section Relabeling

variable (f : Nat → Nat) (r : Response σ κ)

def relabel : Response σ κ := { r with holder := r.holder.map f, queue := r.queue.map f }

def relabeled (p : Response σ κ × Phase) : Response σ κ × Phase := (p.1.relabel f, p.2)

theorem leave_relabel (result : Sent) : (r.relabel f).leave result = relabeled f (r.leave result) := by
  simp [leave, relabeled, relabel, unlock, List.head?_map, List.map_tail]

variable [Deflate.Compressor κ]

theorem compress_relabel (w : Write) : (r.relabel f).compress w = relabeled f (r.compress w) := by
  unfold compress
  dsimp only [relabel]
  generalize w.step r.session r.resources = p
  cases p.action with
  | error reason =>
      exact leave_relabel f ({ r with session := p.session, resources := p.resources } : Response σ κ).finish _
  | ok action =>
      cases action with
      | succeeded => exact leave_relabel f { r with session := p.session, resources := p.resources } _
      | _ => rfl

theorem after_write_relabel (last : Bool) (result : Sent) (site : Site) :
    (r.relabel f).afterWrite last result site = relabeled f (r.afterWrite last result site) := by
  cases site with
  | passing =>
      cases result with
      | error e => exact leave_relabel f { r with state := .finished } _
      | ok done =>
          cases last with
          | true => exact leave_relabel f { r with state := .finished } _
          | false => exact leave_relabel f r _
  | heading =>
      cases result with
      | error e => exact leave_relabel f r.finish _
      | ok done => exact leave_relabel f r _
  | flushing w =>
      cases result with
      | error e => exact leave_relabel f r.finish _
      | ok done =>
          cases last with
          | true => exact leave_relabel f r.closed _
          | false => rfl

variable [Sink σ]

theorem commit_relabel (last : Bool) (content : Option Bytes) :
    (r.relabel f).commit last content = relabeled f (r.commit last content) := by
  have verdict : (r.relabel f).judge (r.relabel f).head last content = r.judge r.head last content := rfl
  unfold commit
  rw [verdict]
  cases r.judge r.head last content with
  | plain headers => rfl
  | coded headers entry engines =>
      dsimp only
      split <;> rfl

theorem write_relabel (me : Nat) (last : Bool) (content : Option Bytes) :
    (r.relabel f).start (f me) (.write last content) = relabeled f (r.start me (.write last content)) := by
  simp only [start]
  cases state : r.state with
  | mightCompress =>
      cases free : r.holder with
      | none =>
          have same := commit_relabel f ({ r with state := .committing }.lock me) last (content.filter (!·.isEmpty))
          simpa only [dispatch, relabel, state, acquire, free, lock, Option.map_none,
            Option.map_some, Option.isNone_none,
            if_true, run] using same
      | some other => simp [dispatch, relabel, relabeled, state, acquire, free]
  | committing => simp [dispatch, relabel, relabeled, state]
  | notCompressing => cases free : r.holder <;> simp [dispatch, relabel, relabeled, state, free, lock, pass]
  | compressing => cases free : r.holder <;> simp [dispatch, relabel, relabeled, state, free, lock]
  | finished => simp [dispatch, relabel, relabeled, state]

theorem resume_relabel (me : Nat) (phase : Phase) (active : phase.IsActive) :
    (r.relabel f).resume (f me) phase = relabeled f (r.resume me phase) := by
  cases phase with
  | writing last content site => exact after_write_relabel f (r.sent last content) last _ site
  | compressing w => exact compress_relabel f r w
  | _ => exact active.elim

omit [Deflate.Compressor κ] [Sink σ] in
theorem relabel_free (free : r.holder = none) (quiet : r.queue = []) : r.relabel f = r := by
  simp only [relabel, free, quiet, Option.map_none, List.map_nil]
  rw [← free, ← quiet]

end Relabeling

end Response

def Faultless (κ : Type) [Deflate.Compressor κ] : Prop :=
  ∀ (c : κ) (input : Bytes) (free : Nat) (flush : Deflate.Flush),
  (Deflate.Compressor.compress c input free flush).fault = none

theorem encoder_faultless : Faultless Deflate.Encoder := by
  intro c input free flush
  simp only [Deflate.Compressor.compress, Deflate.Encoder.compress]
  split <;> rfl

theorem engine_faultless [Deflate.Compressor κ] (faultless : Faultless κ) (e : Deflate.Engine κ)
    (free : Nat) (syncFlush : Bool) :
    ∃ d out, e.deflate free syncFlush = (d, .ok out) := by
  unfold Deflate.Engine.deflate
  split
  · exact ⟨_, _, rfl⟩
  · dsimp only
    rw [faultless]
    exact ⟨_, _, rfl⟩

namespace Write

variable [Deflate.Compressor κ] (w : Write) (s : Session κ) (r : Resources κ) (e : Deflate.Engine κ) (b : Buffer)

theorem conclude_faultless : ∃ action, (w.conclude s r e b).action = .ok action := by
  rw [conclude]
  by_cases fits : e.finished ∧ trailerSize ≤ b.free
  · rw [if_pos fits]
    exact ⟨_, rfl⟩
  · rw [if_neg fits]
    exact ⟨_, rfl⟩

variable (faultless : Faultless κ)

include faultless

theorem deflate_faultless : ∃ action, (w.deflate s r e b).action = .ok action := by
  obtain ⟨d, out, given⟩ := engine_faultless faultless e b.free s.syncFlush
  rw [deflate, given]
  exact conclude_faultless w s r d (b.put out)

theorem advance_faultless : ∃ action, (w.advance s r e b).action = .ok action := by
  rcases advance_cases w s r e b with ⟨concluded, -⟩ | ⟨v, c, d, fed, -⟩ | ⟨paused, -⟩
  · rw [concluded]
    exact conclude_faultless w s r e b
  · rw [fed]
    exact deflate_faultless v _ r d b faultless
  · rw [paused]
    exact ⟨_, rfl⟩

theorem step_faultless : ∃ action, (w.step s r).action = .ok action := by
  rw [step]
  cases s.entry with
  | none => exact ⟨_, rfl⟩
  | some entry => exact advance_faultless w s _ _ _ faultless

end Write

-- A call on its way to its end. Only content or the end is written without regard to the head.
def Phase.Sails : Phase → Prop
  | .writing last _ .heading => last = false
  | phase => phase.IsActive

theorem Phase.sails_active (phase : Phase) (sails : phase.Sails) : phase.IsActive := by
  cases phase with
  | writing last content site => trivial
  | compressing w => trivial
  | _ => exact sails.elim

theorem Phase.sails_undone (phase : Phase) (sails : phase.Sails) (ended : phase.IsDone) : False := by
  cases phase with
  | done result => exact sails
  | _ => exact ended

def Phase.Prospers : Phase → Prop
  | .done (.ok ()) => True
  | phase => phase.Sails

theorem Phase.prospers_cases (phase : Phase) (prospers : phase.Prospers) : phase = .done (.ok ()) ∨ phase.Sails := by
  cases phase with
  | done result =>
      cases result with
      | ok done => exact .inl rfl
      | error e => exact prospers.elim
  | _ => exact .inr prospers

theorem Phase.sails_prosper (phase : Phase) (sails : phase.Sails) : phase.Prospers := by
  cases phase with
  | done result => exact sails.elim
  | _ => exact sails

namespace Response

variable [Sink σ] [Deflate.Compressor κ]

def IsOpen (sound : σ → Prop) (r : Response σ κ) : Prop := r.state = .finished ∨ sound r.sink

variable (sound : σ → Prop) (reliable : Sink.Reliable sound) (faultless : Faultless κ)

omit [Sink σ] in
theorem after_write_sails (r : Response σ κ) (last : Bool) (content : Option Bytes) (site : Site)
    (sails : (Phase.writing last content site).Sails) (here : last = false → sound r.sink) :
    ((r.afterWrite last (.ok ()) site).2.Sails ∧ sound (r.afterWrite last (.ok ()) site).1.sink) ∨
      ((r.afterWrite last (.ok ()) site).2 = .done (.ok ()) ∧ (r.afterWrite last (.ok ()) site).1.IsOpen sound) := by
  cases site with
  | passing =>
      cases last with
      | true => exact .inr ⟨rfl, .inl rfl⟩
      | false => exact .inr ⟨rfl, .inr (here rfl)⟩
  | heading => exact .inr ⟨rfl, .inr (here sails)⟩
  | flushing w =>
      cases last with
      | true => exact .inr ⟨rfl, .inl rfl⟩
      | false => exact .inl ⟨trivial, here rfl⟩

include faultless

omit [Sink σ] in
theorem compress_sails (r : Response σ κ) (w : Write) (here : sound r.sink) :
    ((r.compress w).2.Sails ∧ sound (r.compress w).1.sink) ∨
      ((r.compress w).2 = .done (.ok ()) ∧ (r.compress w).1.IsOpen sound) := by
  obtain ⟨action, fine⟩ := Write.step_faultless w r.session r.resources faultless
  unfold compress
  dsimp only
  rw [fine]
  cases action with
  | succeeded => exact .inr ⟨rfl, .inr here⟩
  | _ => exact .inl ⟨trivial, here⟩

include reliable

theorem resume_sails (r : Response σ κ) (me : Nat) (phase : Phase) (sails : phase.Sails) (here : sound r.sink) :
    ((r.resume me phase).2.Sails ∧ sound (r.resume me phase).1.sink) ∨
      ((r.resume me phase).2 = .done (.ok ()) ∧ (r.resume me phase).1.IsOpen sound) := by
  cases phase with
  | writing last content site =>
      rw [resume_writing me r last content site (reliable.accepts r.sink last content here)]
      refine after_write_sails sound (r.sent last content) last content site sails ?_
      rintro rfl
      exact reliable.stays r.sink content here
  | compressing w => exact compress_sails sound faultless r w here
  | _ => exact sails.elim

omit faultless

theorem write_sails (r : Response σ κ) (me : Nat) (last : Bool) (content : Option Bytes) (settled : r.Settled)
    (free : r.holder = none) (here : r.IsOpen sound) :
    ((r.start me (.write last content)).2.Sails ∧ sound (r.start me (.write last content)).1.sink) ∨
      ∃ result, r.start me (.write last content) = (r, .done result) := by
  rw [start]
  generalize content.filter (!·.isEmpty) = content
  cases state : r.state with
  | finished => exact .inr ⟨_, by simp only [dispatch, state]; rfl⟩
  | committing => simp [Settled, state] at settled
  | notCompressing =>
      have open_ : sound r.sink := here.resolve_left (by simp [state])
      simp only [dispatch, state, free, Option.isNone_none, if_true]
      exact .inl ⟨trivial, open_⟩
  | compressing =>
      have open_ : sound r.sink := here.resolve_left (by simp [state])
      simp only [dispatch, state, free, Option.isNone_none, if_true]
      exact .inl ⟨trivial, open_⟩
  | mightCompress =>
      have open_ : sound r.sink := here.resolve_left (by simp [state])
      have edited (headers : Header.Map) : sound (r.setHeaders headers).sink := reliable.edits _ _ open_
      simp only [dispatch, state]
      rw [acquire_free ({ r with state := .committing } : Response σ κ) me _ free, run, commit]
      refine .inl ?_
      split
      · exact ⟨trivial, edited _⟩
      · dsimp only
        split
        · exact ⟨rfl, edited _⟩
        · exact ⟨trivial, edited _⟩

omit reliable

theorem write_refused (r : Response σ κ) (me other : Nat) (last : Bool) (content : Option Bytes) (phase : Phase)
    (taken : r.holder = some other) (holds : r.Holds phase) (sails : phase.Sails) :
    r.start me (.write last content) = (r, .done (.error .writePending)) := by
  have state : r.state = .notCompressing ∨ r.state = .compressing := by
    cases phase with
    | writing last content site =>
        cases site with
        | passing => exact .inl holds.1
        | heading => exact .inr holds.1
        | flushing w => cases last <;> exact .inr holds.1
    | compressing w => exact .inr holds.1
    | _ => exact sails.elim
  rcases state with state | state <;> simp [start, dispatch, state, taken]

end Response

end Gateway.Gzip
