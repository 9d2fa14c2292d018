import Gateway.Proofs.Gzip.Delivery

set_option autoImplicit false

namespace Gateway.Gzip

variable {κ : Type} [Deflate.Compressor κ]

namespace Session

-- So many entries are out of the pool besides the one that the session may have.
def Lent (n : Nat) (s : Session κ) (r : Resources κ) : Prop := r.engines.checkedOut = n + s.entry.isSome.toNat

variable (n : Nat) (s : Session κ) (r : Resources κ)

omit [Deflate.Compressor κ] in
theorem release_buffer_lent (lent : Lent n s r) : Lent n (s.releaseBuffer r).1 (s.releaseBuffer r).2 := by
  rw [releaseBuffer]
  cases s.buffer <;> exact lent

theorem release_entry_lent (lent : Lent n s r) : Lent n (s.releaseEntry r).1 (s.releaseEntry r).2 := by
  rw [releaseEntry]
  cases held : s.entry with
  | none => exact lent
  | some entry =>
      have back : r.engines.checkedOut - 1 = n := by simp [Lent, held] at lent; omega
      exact back

theorem release_lent (lent : Lent n s r) : Lent n (s.release r).1 (s.release r).2 :=
  release_buffer_lent n _ _ (release_entry_lent n s r lent)

theorem start_lent (entry : Deflate.Entry κ) (engines : Deflate.Pool κ) (lent : Lent n s r)
    (acquired : r.engines.acquire? = some (entry, engines)) :
    Lent n (s.start { r with engines } entry).1 (s.start { r with engines } entry).2 := by
  have one_more : engines.checkedOut = r.engines.checkedOut + 1 := by
    rw [Deflate.Pool.acquire?] at acquired
    split at acquired
    · obtain ⟨-, rfl⟩ := Prod.mk.inj (Option.some.inj acquired)
      rfl
    · cases acquired
  have count : ({ r with engines } : Resources κ).engines.checkedOut = n + 1 + s.entry.isSome.toNat := by
    rw [Lent] at lent
    simp only [one_more, lent]
    omega
  have released := release_entry_lent (n + 1) s { r with engines } count
  rw [Lent, release_entry_entry] at released
  exact released

end Session

namespace Write

open Session (Lent)

variable (n : Nat) (w : Write) (s : Session κ) (r : Resources κ) (e : Deflate.Engine κ) (b : Buffer)

def Lends (n : Nat) (p : Progress κ) : Prop := Lent n p.session p.resources

theorem conclude_lends (lent : r.engines.checkedOut = n + 1) : Lends n (w.conclude s r e b) := by
  rw [conclude]
  by_cases fits : e.finished ∧ trailerSize ≤ b.free
  · rw [if_pos fits]
    exact Session.release_entry_lent n _ r lent
  · rw [if_neg fits]
    exact lent

theorem deflate_lends (lent : r.engines.checkedOut = n + 1) : Lends n (w.deflate s r e b) := by
  rw [deflate]
  generalize e.deflate b.free s.syncFlush = called
  obtain ⟨d, result⟩ := called
  cases result with
  | ok out => exact conclude_lends n w s r d (b.put out) lent
  | error reason => exact lent

theorem step_lends (lent : Lent n s r) : Lends n (w.step s r) := by
  rw [step]
  cases held : s.entry with
  | none => exact Session.release_buffer_lent n s r lent
  | some entry =>
      have lent' : (openBuffer s r).2.engines.checkedOut = n + 1 := by
        rw [open_buffer_engines, lent, held]
        rfl
      dsimp only
      rcases advance_cases w s (openBuffer s r).2 (r.engines.engine entry) (openBuffer s r).1 with
        ⟨concluded, -⟩ | ⟨v, c, d, fed, -⟩ | ⟨paused, -⟩
      · rw [concluded]
        exact conclude_lends n w s _ _ _ lent'
      · rw [fed]
        exact deflate_lends n v _ _ d _ lent'
      · rw [paused]
        exact lent'

end Write

namespace Response

variable {σ : Type} (n : Nat) (r : Response σ κ)

def Lends (n : Nat) (r : Response σ κ) : Prop := Session.Lent n r.session r.resources

theorem finish_lends (lends : r.Lends n) : r.finish.Lends n := Session.release_lent n r.session r.resources lends

theorem compress_lends (w : Write) (lends : r.Lends n) : (r.compress w).1.Lends n := by
  have stepped := Write.step_lends n w r.session r.resources lends
  unfold compress
  generalize w.step r.session r.resources = p at stepped
  dsimp only
  cases p.action with
  | error reason => exact finish_lends n { r with session := p.session, resources := p.resources } stepped
  | ok action => cases action <;> exact stepped

theorem after_write_lends (last : Bool) (result : Sent) (site : Site) (lends : r.Lends n) :
    (r.afterWrite last result site).1.Lends n := by
  cases site with
  | passing => cases result <;> cases last <;> exact lends
  | heading =>
      cases result with
      | error e => exact finish_lends n r lends
      | ok done => exact lends
  | flushing w =>
      cases result with
      | error e => exact finish_lends n r lends
      | ok done =>
          cases last with
          | true => exact Session.release_buffer_lent n r.session r.resources lends
          | false => exact lends

variable [Sink σ]

theorem commit_lends (last : Bool) (content : Option Bytes) (lends : r.Lends n) :
    (r.commit last content).1.Lends n := by
  rw [commit]
  cases verdict : r.judge r.head last content with
  | plain headers => exact lends
  | coded headers entry engines =>
      have acquired := judge_entry r _ last content headers entry engines verdict
      have begun := Session.start_lent n r.session r.resources entry engines lends acquired
      dsimp only
      split <;> exact begun

theorem run_lends (errand : Errand) (lends : r.Lends n) : (r.run errand).1.Lends n := by
  cases errand with
  | commit last content => exact commit_lends n r last content lends
  | abandon => exact finish_lends n r lends

theorem acquire_lends (me : Nat) (errand : Errand) (lends : r.Lends n) : (r.acquire me errand).1.Lends n := by
  rw [acquire]
  split
  · exact run_lends n (r.lock me) errand lends
  · exact lends

theorem dispatch_lends (me : Nat) (last : Bool) (content : Option Bytes) (lends : r.Lends n) :
    (r.dispatch me last content).1.Lends n := by
  rw [dispatch]
  split
  · exact acquire_lends n { r with state := .committing } me _ lends
  · exact lends
  · split <;> exact lends
  · split <;> exact lends
  · exact lends

theorem start_lends (me : Nat) (call : Call) (lends : r.Lends n) : (r.start me call).1.Lends n := by
  cases call with
  | write last content => exact dispatch_lends n r me last _ lends
  | succeeded =>
      rw [start]
      split
      · exact lends
      · exact dispatch_lends n { r with completed := true } me true none lends
  | failed =>
      rw [start]
      split
      · exact lends
      · exact acquire_lends n { r with completed := true } me .abandon lends
  | noCompression =>
      rw [start]
      split <;> exact lends

theorem resume_lends (me : Nat) (phase : Phase) (lends : r.Lends n) : (r.resume me phase).1.Lends n := by
  cases phase with
  | waiting errand =>
      rw [resume]
      split
      · exact run_lends n r errand lends
      · exact lends
  | writing last content site => exact after_write_lends n (r.sent last content) last _ site lends
  | compressing w => exact compress_lends n r w lends
  | done result => exact lends

-- The induction is on the steps that a call takes.
theorem settle_lends (me : Nat) (phase : Phase) (q : Response σ κ × Sent) (lends : r.Lends n)
    (settled : settle me r phase = some q) : q.1.Lends n := by
  refine settle.partial_correctness me (fun r _ q => r.Lends n → q.1.Lends n) ?_ r phase q settled lends
  intro settle ih r phase q step lends
  have resumed := resume_lends n r me phase lends
  cases phase with
  | done result =>
      obtain rfl : (r, result) = q := by simpa using step
      exact lends
  | _ =>
      dsimp only at step
      split at step
      · cases step
      · exact ih _ _ q step resumed

theorem call_lends (call : Call) (lends : r.Lends n) : (r.call call).1.Lends n := by
  have started := start_lends n r 0 call lends
  rw [Response.call]
  dsimp only
  cases settled : settle 0 (r.start 0 call).1 (r.start 0 call).2 with
  | none => exact lends
  | some q => exact settle_lends n _ 0 _ q started settled

end Response

end Gateway.Gzip
