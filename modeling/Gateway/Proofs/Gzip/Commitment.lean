import Gateway.Proofs.Buffer
import Gateway.Proofs.Gzip.Passage

set_option autoImplicit false

namespace Gateway.Gzip

variable {σ κ : Type} [Sink σ] [Deflate.Compressor κ]

def Phase.Commits : Phase → Prop
  | .waiting (.commit _ _) => True
  | _ => False

namespace Write

variable (w : Write) (s : Session κ) (r : Resources κ) (e : Deflate.Engine κ) (b : Buffer)

theorem conclude_flushes (filled : b.data ≠ []) : ∃ last, (w.conclude s r e b).action = .ok (.flush last) := by
  rw [conclude]
  by_cases fits : e.finished ∧ trailerSize ≤ b.free
  · rw [if_pos fits]
    exact ⟨true, rfl⟩
  · rw [if_neg fits]
    exact ⟨false, congrArg Except.ok (if_neg (by simpa using filled))⟩

theorem deflate_flushes (filled : b.data ≠ []) (action : Action) (done : (w.deflate s r e b).action = .ok action) :
    ∃ last, action = .flush last := by
  rw [deflate] at done
  generalize e.deflate b.free s.syncFlush = called at done
  obtain ⟨d, result⟩ := called
  cases result with
  | error reason => cases done
  | ok out =>
      have more : (b.put out).data ≠ [] := by
        rw [Buffer.put_data]
        exact List.append_ne_nil_of_left_ne_nil filled out
      obtain ⟨last, flushed⟩ := conclude_flushes w s r d (b.put out) more
      exact ⟨last, Except.ok.inj (done.symm.trans flushed)⟩

theorem step_flushes (entry : Deflate.Entry κ) (active : s.entry = some entry)
    (unopened : s.buffer = none) (action : Action)
    (done : (w.step s r).action = .ok action) : ∃ last, action = .flush last := by
  have filled : (openBuffer s r).1.data ≠ [] := by
    rw [openBuffer, unopened]
    exact List.append_ne_nil_of_right_ne_nil _ (by decide)
  rw [step, active] at done
  dsimp only at done
  rcases advance_cases w s (openBuffer s r).2 (r.engines.engine entry) (openBuffer s r).1 with
    ⟨concluded, -⟩ | ⟨v, c, d, fed, -⟩ | ⟨paused, -⟩
  · rw [concluded] at done
    obtain ⟨last, flushed⟩ := conclude_flushes w s _ _ _ filled
    exact ⟨last, Except.ok.inj (done.symm.trans flushed)⟩
  · rw [fed] at done
    exact deflate_flushes v _ _ d _ filled action done
  · rw [paused] at done
    exact ⟨false, Except.ok.inj (done.symm.trans (congrArg Except.ok (if_neg (by simpa using filled))))⟩

end Write

theorem finished_decided : State.finished ≠ .mightCompress := by decide

namespace Response

-- What goes on after the decision: the head that is or will be committed stays, and the log grows.
structure Keeps (r q : Response (Logged σ) κ) : Prop where
  decided : q.state ≠ .mightCompress
  opened : q.sink.upcoming = r.sink.upcoming
  grown : r.sink.log <+: q.sink.log

section Keeping

variable (r q : Response (Logged σ) κ)

omit [Deflate.Compressor κ] in
theorem keeps_of_same (decided : q.state ≠ .mightCompress) (same : q.sink = r.sink) : r.Keeps q :=
  ⟨decided, by rw [same], same ▸ List.prefix_rfl⟩

omit [Deflate.Compressor κ] in
theorem keeps_of_written (last : Bool) (content : Option Bytes) (decided : q.state ≠ .mightCompress)
    (written : q.sink = (Sink.write r.sink last content).1) : r.Keeps q :=
  ⟨decided, by rw [written, Logged.write_upcoming], by rw [written]; exact List.prefix_append _ _⟩

omit [Sink σ] in
theorem after_write_frame (last : Bool) (result : Sent) (site : Site) (decided : r.state ≠ .mightCompress) :
    (r.afterWrite last result site).1.state ≠ .mightCompress ∧ (r.afterWrite last result site).1.sink = r.sink ∧
      ¬ (r.afterWrite last result site).2.Commits := by
  cases site with
  | passing =>
      cases result with
      | error e => exact ⟨finished_decided, rfl, id⟩
      | ok done =>
          cases last with
          | true => exact ⟨finished_decided, rfl, id⟩
          | false => exact ⟨decided, rfl, id⟩
  | heading =>
      cases result with
      | error e => exact ⟨finished_decided, rfl, id⟩
      | ok done => exact ⟨decided, rfl, id⟩
  | flushing w =>
      cases result with
      | error e => exact ⟨finished_decided, rfl, id⟩
      | ok done =>
          cases last with
          | true => exact ⟨finished_decided, rfl, id⟩
          | false => exact ⟨decided, rfl, id⟩

omit [Sink σ] in
theorem compress_frame (w : Write) (decided : r.state ≠ .mightCompress) :
    (r.compress w).1.state ≠ .mightCompress ∧ (r.compress w).1.sink = r.sink ∧ ¬ (r.compress w).2.Commits := by
  rw [compress]
  dsimp only
  cases (w.step r.session r.resources).action with
  | error reason => exact ⟨finished_decided, rfl, id⟩
  | ok action => cases action <;> exact ⟨decided, rfl, id⟩

theorem resume_keeps (me : Nat) (phase : Phase) (decided : r.state ≠ .mightCompress) (bound : ¬ phase.Commits) :
    r.Keeps (r.resume me phase).1 ∧ ¬ (r.resume me phase).2.Commits := by
  cases phase with
  | waiting errand =>
      cases errand with
      | commit last content => exact absurd trivial bound
      | abandon =>
          rw [resume]
          by_cases mine : r.holder = some me
          · rw [if_pos mine]
            exact ⟨keeps_of_same r _ finished_decided rfl, id⟩
          · rw [if_neg mine]
            exact ⟨keeps_of_same r r decided rfl, id⟩
  | writing last content site =>
      obtain ⟨state, sink, going⟩ := after_write_frame { r with sink := (Sink.write r.sink last content).1 } last
        (Sink.write r.sink last content).2 site decided
      exact ⟨keeps_of_written r _ last content state sink, going⟩
  | compressing w =>
      obtain ⟨state, sink, going⟩ := compress_frame r w decided
      exact ⟨keeps_of_same r _ state sink, going⟩
  | done result => exact ⟨keeps_of_same r r decided rfl, id⟩

theorem dispatch_keeps (me : Nat) (last : Bool) (content : Option Bytes) (decided : r.state ≠ .mightCompress) :
    r.Keeps (r.dispatch me last content).1 ∧ ¬ (r.dispatch me last content).2.Commits := by
  have here (phase : Phase) (bound : ¬ phase.Commits) : r.Keeps (r, phase).1 ∧ ¬ (r, phase).2.Commits :=
    ⟨keeps_of_same r r decided rfl, bound⟩
  cases state : r.state with
  | mightCompress => exact absurd state decided
  | committing => simpa only [dispatch, state] using here _ id
  | finished => simpa only [dispatch, state] using here _ id
  | notCompressing =>
      simp only [dispatch, state]
      split
      · exact ⟨keeps_of_same r _ decided rfl, id⟩
      · exact here _ id
  | compressing =>
      simp only [dispatch, state]
      split
      · exact ⟨keeps_of_same r _ decided rfl, id⟩
      · exact here _ id

theorem start_keeps (me : Nat) (call : Call) (decided : r.state ≠ .mightCompress) :
    r.Keeps (r.start me call).1 ∧ ¬ (r.start me call).2.Commits := by
  cases call with
  | write last content => exact dispatch_keeps r me last _ decided
  | succeeded =>
      rw [start]
      split
      · exact ⟨keeps_of_same r r decided rfl, id⟩
      · obtain ⟨keeps, bound⟩ := dispatch_keeps { r with completed := true } me true none decided
        exact ⟨⟨keeps.decided, keeps.opened, keeps.grown⟩, bound⟩
  | failed =>
      rw [start]
      split
      · exact ⟨keeps_of_same r r decided rfl, id⟩
      · rw [acquire]
        split
        · exact ⟨keeps_of_same r _ finished_decided rfl, id⟩
        · exact ⟨keeps_of_same r _ decided rfl, id⟩
  | noCompression =>
      rw [start]
      split
      · rename_i state
        exact absurd state decided
      · exact ⟨keeps_of_same r r decided rfl, id⟩
      · exact ⟨keeps_of_same r r decided rfl, id⟩

end Keeping

end Response

namespace Calls

-- Calls on a response that has been decided on: none of them decides again, the head stays, and so does
-- what the sink was given.
structure Bound (head : Head) (log : List Delivery) (c : Calls (Logged σ) κ) : Prop where
  decided : c.response.state ≠ .mightCompress
  going : ∀ phase ∈ c.phases, ¬ phase.Commits
  opened : c.response.sink.upcoming = head
  grown : log <+: c.response.sink.log

section Binding

variable (head : Head) (log : List Delivery) (c : Calls (Logged σ) κ)

theorem begin_bound (call : Call) (bound : c.Bound head log) : (c.begin call).Bound head log := by
  obtain ⟨keeps, going⟩ := c.response.start_keeps c.phases.length call bound.decided
  refine ⟨keeps.decided, ?_, keeps.opened.trans bound.opened, bound.grown.trans keeps.grown⟩
  exact List.forall_mem_append.mpr ⟨bound.going, List.forall_mem_singleton.mpr going⟩

theorem advance_bound (i : Nat) (bound : c.Bound head log) : (c.advance i).Bound head log := by
  rw [advance]
  cases here : c.phases[i]? with
  | none => exact bound
  | some phase =>
      obtain ⟨keeps, going⟩ := c.response.resume_keeps i phase bound.decided
        (bound.going phase (List.mem_of_getElem? here))
      refine ⟨keeps.decided, ?_, keeps.opened.trans bound.opened, bound.grown.trans keeps.grown⟩
      intro other member
      rcases List.mem_or_eq_of_mem_set member with old | rfl
      · exact bound.going other old
      · exact going

theorem play_bound (moves : List Move) (bound : c.Bound head log) : (c.play moves).Bound head log := by
  induction moves generalizing c with
  | nil => exact bound
  | cons move rest ih =>
      cases move with
      | begin call => exact ih _ (c.begin_bound head log call bound)
      | advance i => exact ih _ (c.advance_bound head log i bound)

omit [Deflate.Compressor κ] in
theorem bound_commits (bound : c.Bound head log) (written : log ≠ []) : c.response.sink.committed = some head := by
  have more : c.response.sink.log ≠ [] := fun none_left =>
    written (List.prefix_nil.mp (none_left ▸ bound.grown))
  rw [Logged.written_committed c.response.sink more, bound.opened]

end Binding

end Calls

namespace Response

structure Opens (head : Head) (r : Response (Logged σ) κ) (phase : Phase) : Prop where
  state : r.state = .compressing
  opened : r.sink.upcoming = head
  entry : ∃ entry, r.session.entry = some entry
  buffer : r.session.buffer = none
  phase : phase = .writing false none .heading ∨ ∃ w, phase = .compressing w

section Opening

variable (r : Response (Logged σ) κ) (head : Head)

theorem commit_opens (last : Bool) (content : Option Bytes) (headers : Header.Map) (entry : Deflate.Entry κ)
    (engines : Deflate.Pool κ) (editable : Sink.Editable σ) (unwritten : r.sink.log = [])
    (buffer : r.session.buffer = none)
    (coded : r.judge r.head last content = .coded headers entry engines) :
    (r.commit last content).1.Opens { r.head with headers } (r.commit last content).2 := by
  have opened : (Sink.setHead r.sink { r.head with headers }).upcoming = { r.head with headers } :=
    Logged.edited_upcoming editable r.sink _ unwritten
  have emptied : (r.session.start { r.resources with engines } entry).1.buffer = none :=
    (Session.start_buffer r.session _ entry).trans buffer
  rw [commit, coded]
  dsimp only
  split
  · exact ⟨rfl, opened, ⟨entry, rfl⟩, emptied, .inl rfl⟩
  · exact ⟨rfl, opened, ⟨entry, rfl⟩, emptied, .inr ⟨_, rfl⟩⟩

theorem resume_writes (me : Nat) (last : Bool) (content : Option Bytes) (site : Site)
    (decided : r.state ≠ .mightCompress) :
    (r.resume me (.writing last content site)).1.sink.log ≠ [] := by
  obtain ⟨-, sink, -⟩ := after_write_frame { r with sink := (Sink.write r.sink last content).1 } last
    (Sink.write r.sink last content).2 site decided
  have written : (r.resume me (.writing last content site)).1.sink = (Sink.write r.sink last content).1 := sink
  rw [written]
  exact List.append_ne_nil_of_right_ne_nil _ (List.cons_ne_nil _ _)

variable (faultless : Faultless κ)

include faultless

omit [Sink σ] in
theorem compress_writes (w : Write) (entry : Deflate.Entry κ) (active : r.session.entry = some entry)
    (unopened : r.session.buffer = none) : ∃ last content site, (r.compress w).2 = .writing last content site := by
  obtain ⟨action, done⟩ := Write.step_faultless w r.session r.resources faultless
  obtain ⟨last, rfl⟩ := Write.step_flushes w r.session r.resources entry active unopened action done
  rw [compress]
  dsimp only
  rw [done]
  exact ⟨_, _, _, rfl⟩

theorem opens_writes (phase : Phase) (opens : r.Opens head phase) (decided : r.state ≠ .mightCompress) :
    ((r.resume 0 phase).1.resume 0 (r.resume 0 phase).2).1.sink.log ≠ [] := by
  rcases opens.phase with rfl | ⟨w, rfl⟩
  · have written := r.resume_writes 0 false none .heading decided
    obtain ⟨first, going⟩ := r.resume_keeps 0 (.writing false none .heading) decided id
    obtain ⟨second, -⟩ := resume_keeps _ 0 _ first.decided going
    exact fun none_left => written (List.prefix_nil.mp (none_left ▸ second.grown))
  · obtain ⟨entry, active⟩ := opens.entry
    obtain ⟨last, content, site, writes⟩ := r.compress_writes faultless w entry active opens.buffer
    change ((r.compress w).1.resume 0 (r.compress w).2).1.sink.log ≠ []
    rw [writes]
    exact resume_writes _ 0 last content site (r.compress_frame w decided).1

theorem opens_commits (phase : Phase) (opens : r.Opens head phase) (moves : List Move) :
    ((⟨r, [phase]⟩ : Calls (Logged σ) κ).play (.advance 0 :: .advance 0 :: moves)).response.sink.committed =
      some head := by
  have decided : r.state ≠ .mightCompress := by rw [opens.state]; decide
  have going : ¬ phase.Commits := by
    rcases opens.phase with rfl | ⟨w, rfl⟩ <;> exact id
  have bound : (⟨r, [phase]⟩ : Calls (Logged σ) κ).Bound head [] :=
    ⟨decided, List.forall_mem_singleton.mpr going, opens.opened, List.nil_prefix⟩
  have twice := Calls.advance_bound head [] _ 0 (Calls.advance_bound head [] _ 0 bound)
  have here : (((⟨r, [phase]⟩ : Calls (Logged σ) κ).advance 0).advance 0).Bound head _ :=
    { twice with grown := List.prefix_rfl }
  exact Calls.bound_commits head _ _ (Calls.play_bound head _ _ moves here)
    (r.opens_writes head faultless phase opens decided)

end Opening

end Response

end Gateway.Gzip
