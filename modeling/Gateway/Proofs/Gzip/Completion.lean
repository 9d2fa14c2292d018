import Gateway.Proofs.Gzip.Attendance
import Gateway.Proofs.Gzip.Lending

set_option autoImplicit false

namespace Gateway.Gzip

def Call.completes : Call → Bool
  | .succeeded => true
  | .failed => true
  | _ => false

variable {σ κ : Type}

def Phase.IsFine (phase : Phase) : Prop := ∀ e, phase ≠ .done (.error e)

namespace Response

section Completing

variable [Sink σ] [Deflate.Compressor κ] (r : Response σ κ) (me : Nat)

theorem dispatch_completed (last : Bool) (content : Option Bytes) :
    (r.dispatch me last content).1.completed = r.completed := by
  rw [dispatch]
  split
  · rw [acquire]
    split
    · rw [run, commit]
      split
      · rfl
      · dsimp only
        split <;> rfl
    · rfl
  · rfl
  · split <;> rfl
  · split <;> rfl
  · rfl

theorem start_completed (call : Call) : (r.start me call).1.completed = (r.completed || call.completes) := by
  cases call with
  | write last content => exact (dispatch_completed r me last _).trans (Bool.or_false _).symm
  | succeeded =>
      rw [start]
      split
      · rename_i completed
        simp [completed]
      · rw [dispatch_completed]
        simp [Call.completes]
  | failed =>
      rw [start]
      split
      · rename_i completed
        simp [completed]
      · rw [acquire]
        split <;> simp [Call.completes, run, finish, leave, lock, unlock]
  | noCompression =>
      rw [start]
      split <;> exact (Bool.or_false _).symm

omit [Sink σ] in
theorem compress_completed (w : Write) : (r.compress w).1.completed = r.completed := by
  rw [compress]
  dsimp only
  split <;> rfl

omit [Sink σ] in
theorem after_write_completed (last : Bool) (result : Sent) (site : Site) :
    (r.afterWrite last result site).1.completed = r.completed := by
  cases site <;> cases result <;> cases last <;> rfl

theorem resume_completed (phase : Phase) (abandons : ∀ last content, phase ≠ .waiting (.commit last content)) :
    (r.resume me phase).1.completed = r.completed := by
  cases phase with
  | waiting errand =>
      cases errand with
      | commit last content => exact absurd rfl (abandons last content)
      | abandon =>
          rw [resume]
          split <;> rfl
  | writing last content site => exact after_write_completed (r.sent last content) last _ site
  | compressing w => exact compress_completed r w
  | done result => rfl

theorem completed_refused (call : Call) (completed : r.completed = true) (completes : call.completes = true) :
    r.start me call = (r, .done (.error alreadyCompleted)) := by
  cases call with
  | succeeded | failed => simp [start, completed]
  | _ => cases completes

theorem completing_fine (call : Call) (completes : call.completes = true) (uncompleted : r.completed = false)
    (rests : r.holder = none → r.Rests) (way : r.holder = none ∨ r.state = .finished ∨ call = .failed) :
    (r.start me call).2.IsFine := by
  cases call with
  | failed =>
      rw [start, if_neg (by simp [uncompleted]), acquire]
      split <;> rintro e ⟨⟩
  | succeeded =>
      rw [start, if_neg (by simp [uncompleted])]
      cases state : r.state with
      | finished =>
          simp only [dispatch]
          rintro e ⟨⟩
      | committing =>
          have free : r.holder = none := by simpa [state] using way
          have rest := rests free
          rw [Rests, state] at rest
          exact rest.elim
      | notCompressing | compressing =>
          have free : r.holder = none := by simpa [state] using way
          simp only [dispatch, free, Option.isNone_none, if_true]
          rintro e ⟨⟩
      | mightCompress =>
          have free : r.holder = none := by simpa [state] using way
          simp only [dispatch, acquire, free, Option.isNone_none, if_true, run, commit]
          split
          · rintro e ⟨⟩
          · split <;> rintro e ⟨⟩
  | _ => cases completes

theorem succeeded_pends (other : Nat) (uncompleted : r.completed = false) (taken : r.holder = some other)
    (started : r.state ≠ .mightCompress) (open_ : r.state ≠ .finished) :
    (r.start me .succeeded).2 = .done (.error .writePending) := by
  rw [start, if_neg (by simp [uncompleted])]
  cases state : r.state with
  | mightCompress => exact absurd state started
  | finished => exact absurd state open_
  | _ => simp [dispatch, taken]

end Completing

end Response

namespace Calls

section Playing

variable [Sink σ] [Deflate.Compressor κ]

theorem move_kept (c : Calls σ κ) (m : Move) (i : Nat) (result : Sent) (present : c.phases[i]? = some (.done result)) :
    (c.move m).phases[i]? = some (.done result) := by
  obtain ⟨bound, -⟩ := List.getElem?_eq_some_iff.mp present
  cases m with
  | begin call => exact (List.getElem?_append_left bound).trans present
  | advance j =>
      simp only [move, advance]
      split
      · exact present
      · rename_i phase there
        by_cases same : j = i
        · subst same
          obtain rfl : .done result = phase := Option.some.inj (present.symm.trans there)
          exact List.getElem?_set_self bound
        · exact (List.getElem?_set_ne same).trans present

theorem play_kept (c : Calls σ κ) (moves : List Move) (i : Nat) (result : Sent)
    (present : c.phases[i]? = some (.done result)) :
    (c.play moves).phases[i]? = some (.done result) := by
  induction moves generalizing c with
  | nil => exact present
  | cons m rest ih => exact ih (c.move m) (move_kept c m i result present)

theorem move_completed (c : Calls σ κ) (m : Move) (orderly : c.Orderly) :
    (c.move m).response.completed = (c.response.completed || m.begun.any Call.completes) := by
  cases m with
  | begin call =>
      have started := Response.start_completed c.response c.phases.length call
      simpa [Move.begun, move, begin] using started
  | advance i =>
      simp only [move, Move.begun, List.any_nil, Bool.or_false]
      by_cases mine : c.response.holder = some i
      · obtain ⟨phase, present, holds⟩ := orderly.held i mine
        simp only [advance, present]
        refine Response.resume_completed c.response i phase ?_
        rintro last content rfl
        cases holds.1
      · rw [unchanged_by_idle c orderly i mine]

theorem play_completed (c : Calls σ κ) (moves : List Move) (orderly : c.Orderly) :
    (c.play moves).response.completed = (c.response.completed || (moves.flatMap Move.begun).any Call.completes) := by
  induction moves generalizing c with
  | nil => simp [play]
  | cons m rest ih =>
      have later := ih (c.move m) (move_advances c m orderly).orderly
      rw [move_completed c m orderly] at later
      rw [List.flatMap_cons, List.any_append, ← Bool.or_assoc]
      exact later

theorem completed_refuses (c : Calls σ κ) (moves : List Move) (orderly : c.Orderly)
    (completed : c.response.completed = true)
    (j : Nat) (call : Call) (began : (moves.flatMap Move.begun)[j]? = some call) (completes : call.completes = true) :
    (c.play moves).phases[c.phases.length + j]? = some (.done (.error Response.alreadyCompleted)) := by
  induction moves generalizing c j with
  | nil => cases began
  | cons m rest ih =>
      have orderly' := (move_advances c m orderly).orderly
      have completed' : (c.move m).response.completed = true := by
        rw [move_completed c m orderly, completed, Bool.true_or]
      cases m with
      | advance i =>
          have length : (c.move (.advance i)).phases.length = c.phases.length := by
            simp only [move, advance]
            split <;> simp
          have later := ih (c.move (.advance i)) orderly' completed' j began
          rwa [length] at later
      | begin first =>
          cases j with
          | zero =>
              obtain rfl : first = call := Option.some.inj began
              refine play_kept (c.move (.begin first)) rest _ _ ?_
              simp [move, begin, Response.completed_refused c.response _ first completed completes]
          | succ j =>
              have length : (c.move (.begin first)).phases.length = c.phases.length + 1 := by simp [move, begin]
              have later := ih (c.move (.begin first)) orderly' completed' j began
              rwa [length, Nat.add_right_comm] at later

theorem play_lends (c : Calls σ κ) (moves : List Move) (n : Nat) (lends : c.response.Lends n) :
    (c.play moves).response.Lends n := by
  induction moves generalizing c with
  | nil => exact lends
  | cons m rest ih =>
      refine ih (c.move m) ?_
      cases m with
      | begin call => exact Response.start_lends n c.response _ call lends
      | advance i =>
          simp only [move, advance]
          split
          · exact lends
          · exact Response.resume_lends n c.response i _ lends

omit [Sink σ] [Deflate.Compressor κ] in
theorem quiet_free (c : Calls σ κ) (orderly : c.Orderly) : c.IsQuiet ↔ c.response.holder = none := by
  constructor
  · intro quiet
    cases taken : c.response.holder with
    | none => rfl
    | some i =>
        obtain ⟨phase, present, holds⟩ := orderly.held i taken
        have ended := quiet phase (List.mem_of_getElem? present)
        cases phase with
        | done result => exact holds.elim
        | _ => exact ended.elim
  · intro free phase member
    obtain ⟨i, present⟩ := List.mem_iff_getElem?.mp member
    rcases orderly.others i phase present (by simp [free]) with ended | ⟨-, queued⟩
    · exact ended
    · simp [(orderly.free free).1] at queued

variable [Deflate.LawfulCompressor κ] (sound : σ → Prop) (reliable : Sink.Reliable sound)
  (calls : List Call) (c : Calls σ κ) (moves : List Move)

include reliable

theorem move_fine (m : Move) (i : Nat) (phase : Phase) (orderly : c.Orderly) (attended : Attended sound calls c)
    (present : c.phases[i]? = some phase) (fine : phase.IsFine) :
    ∃ next, (c.move m).phases[i]? = some next ∧ next.IsFine := by
  obtain ⟨bound, -⟩ := List.getElem?_eq_some_iff.mp present
  cases m with
  | begin call => exact ⟨phase, (List.getElem?_append_left bound).trans present, fine⟩
  | advance j =>
      by_cases mine : c.response.holder = some j
      · obtain ⟨call, held, began, there, bears⟩ := attended.busy j mine
        simp only [move, advance, there]
        by_cases same : j = i
        · subst same
          refine ⟨_, List.getElem?_set_self bound, ?_⟩
          cases Response.resume_serves sound c.response call.closes reliable j held bears mine attended.open_ with
          | onward bears' state open_ =>
              intro e failed
              rw [failed] at bears'
              exact bears'
          | ended done rests open_ closed left =>
              rw [done]
              rintro e ⟨⟩
        · exact ⟨phase, (List.getElem?_set_ne same).trans present, fine⟩
      · rw [move, unchanged_by_idle c orderly j mine]
        exact ⟨phase, present, fine⟩

theorem play_fine (i : Nat) (phase : Phase) (orderly : c.Orderly) (attended : Attended sound calls c)
    (present : c.phases[i]? = some phase) (fine : phase.IsFine) :
    ∃ next, (c.play moves).phases[i]? = some next ∧ next.IsFine := by
  induction moves generalizing c calls phase with
  | nil => exact ⟨phase, present, fine⟩
  | cons m rest ih =>
      obtain ⟨next, there, fine'⟩ := move_fine sound reliable calls c m i phase orderly attended present fine
      have attended' := play_attended sound reliable calls c [m] orderly attended
      exact ih _ (c.move m) next (move_advances c m orderly).orderly attended' there fine'

end Playing

theorem quiet_returned [Sink σ] [Deflate.Compressor κ] (r : Response σ κ) (moves : List Move) (fresh : r.IsFresh)
    (quiet : ((new r).play moves).IsQuiet) :
    ((new r).play moves).response.resources.engines.checkedOut =
      r.resources.engines.checkedOut + if ((new r).play moves).response.state = .compressing then 1 else 0 := by
  have start := new_orderly r fresh
  have lends : ((new r).play moves).response.Lends r.resources.engines.checkedOut := by
    refine play_lends (new r) _ _ ?_
    show Session.Lent r.resources.engines.checkedOut r.session r.resources
    rw [Session.Lent, fresh.entry]
    rfl
  have settled := quiet_settled _ (play_advances (new r) moves start).orderly quiet
  refine lends.trans (congrArg (r.resources.engines.checkedOut + ·) ?_)
  by_cases running : ((new r).play moves).response.state = .compressing
  · rw [if_pos running, Response.settled_entry _ settled running]
    rfl
  · rw [if_neg running, (Response.settled_empty _ settled running).1]
    rfl

def IsBusy (c : Calls σ κ) : Prop := ¬ c.IsQuiet ∧ c.response.state ≠ .finished

section Ending

variable [Sink σ] [Deflate.Compressor κ] [Deflate.LawfulCompressor κ] (sound : σ → Prop)
    (reliable : Sink.Reliable sound)
  (r : Response σ κ) (before after : List Move) (call : Call) (fresh : r.IsFresh)
  (size : minBufferSize ≤ r.session.bufferSize) (ready : r.resources.engines.Ready) (here : sound r.sink)
  (completes : call.completes = true) (first : ∀ other ∈ before.flatMap Move.begun, other.completes = false)

omit [Sink σ] [Deflate.Compressor κ] [Deflate.LawfulCompressor κ] in
theorem result_done (c : Calls σ κ) (i : Nat) (result : Sent) :
    c.result? i = some result ↔ c.phases[i]? = some (.done result) := by
  rw [result?]
  cases present : c.phases[i]? with
  | none => simp
  | some phase => cases phase <;> simp

omit [Sink σ] [Deflate.Compressor κ] [Deflate.LawfulCompressor κ] in
theorem quiet_fine (c : Calls σ κ) (quiet : c.IsQuiet) (i : Nat) (phase : Phase) (present : c.phases[i]? = some phase)
    (fine : phase.IsFine) : c.result? i = some (.ok ()) := by
  have ended := quiet phase (List.mem_of_getElem? present)
  cases phase with
  | done result =>
      cases result with
      | ok done => exact (result_done c i _).mpr present
      | error e => exact (fine e rfl).elim
  | _ => exact ended.elim

include reliable fresh size ready here completes first

theorem completion_answered (quiet : ((new r).play (before ++ .begin call :: after)).IsQuiet) :
    let d := (new r).play before
    let c := (new r).play (before ++ .begin call :: after)
    (call = .succeeded ∧ d.IsBusy → c.result? d.phases.length = some (.error .writePending)) ∧
    (¬ (call = .succeeded ∧ d.IsBusy) → c.result? d.phases.length = some (.ok ())) := by
  intro d c
  have orderly : d.Orderly := (play_advances (new r) before (new_orderly r fresh)).orderly
  have attended := play_attended sound reliable [] (new r) before (new_orderly r fresh)
    (new_attended sound r fresh size ready here)
  have uncompleted : d.response.completed = false := by
    have completed := play_completed (new r) before (new_orderly r fresh)
    rw [show (new r).response.completed = false from fresh.completed, Bool.false_or] at completed
    exact completed.trans (List.any_eq_false.mpr fun other member => by simp [first other member])
  have next : c = (d.move (.begin call)).play after := play_append (new r) before (.begin call :: after)
  have begun : (d.move (.begin call)).phases[d.phases.length]? = some (d.response.start d.phases.length call).2 := by
    simp [move, begin]
  constructor
  · rintro ⟨rfl, busy, open_⟩
    obtain ⟨other, taken⟩ := Option.ne_none_iff_exists'.mp (mt (quiet_free d orderly).mpr busy)
    rw [Response.succeeded_pends d.response d.phases.length other uncompleted taken
      (holder_started d orderly other taken) open_] at begun
    rw [result_done, next]
    exact play_kept _ after _ _ begun
  · intro free
    have way : d.response.holder = none ∨ d.response.state = .finished ∨ call = .failed := by
      cases call with
      | failed => exact .inr (.inr rfl)
      | succeeded =>
          by_cases open_ : d.response.state = .finished
          · exact .inr (.inl open_)
          · exact .inl ((quiet_free d orderly).mp (Classical.not_not.mp fun busy => free ⟨rfl, busy, open_⟩))
      | _ => cases completes
    have fine := Response.completing_fine d.response d.phases.length call completes uncompleted attended.idle way
    have attended' := play_attended sound reliable _ d [.begin call] orderly attended
    obtain ⟨last, present, fine'⟩ := play_fine sound reliable _ (d.move (.begin call)) after _ _
      (move_advances d (.begin call) orderly).orderly attended' begun fine
    rw [← next] at present
    exact quiet_fine c quiet _ last present fine'

theorem completion_refused (quiet : ((new r).play (before ++ .begin call :: after)).IsQuiet) :
    let d := (new r).play before
    let c := (new r).play (before ++ .begin call :: after)
    let calls := (before ++ .begin call :: after).flatMap Move.begun
    ∀ i other, calls[i]? = some other → other.completes = true →
      (c.result? i = some (.error Response.alreadyCompleted) ↔ i ≠ d.phases.length) := by
  intro d c calls i other began completes'
  have orderly : d.Orderly := (play_advances (new r) before (new_orderly r fresh)).orderly
  have attended := play_attended sound reliable [] (new r) before (new_orderly r fresh)
    (new_attended sound r fresh size ready here)
  have length : (before.flatMap Move.begun).length = d.phases.length := attended.length
  have listed : calls = before.flatMap Move.begun ++ call :: after.flatMap Move.begun := by simp [calls, Move.begun]
  have next : c = (d.move (.begin call)).play after := play_append (new r) before (.begin call :: after)
  constructor
  · rintro refused rfl
    obtain ⟨pending, heard⟩ :=
      completion_answered sound reliable r before after call fresh size ready here completes first quiet
    by_cases displaced : call = .succeeded ∧ d.IsBusy
    · cases (pending displaced).symm.trans refused
    · cases (heard displaced).symm.trans refused
  · intro apart
    rw [listed] at began
    rcases Nat.lt_or_gt_of_ne apart with earlier | later
    · rw [List.getElem?_append_left (by omega)] at began
      cases (first other (List.mem_of_getElem? began)).symm.trans completes'
    · obtain ⟨j, rfl⟩ := Nat.exists_eq_add_of_lt later
      have behind : (after.flatMap Move.begun)[j]? = some other := by
        rw [List.getElem?_append_right (by omega),
          show d.phases.length + j + 1 - (before.flatMap Move.begun).length = j + 1 by omega] at began
        exact began
      have completed : (d.move (.begin call)).response.completed = true := by
        rw [move_completed d _ orderly, Move.begun, List.any_cons, completes, Bool.true_or, Bool.or_true]
      have refused :=
        completed_refuses (d.move (.begin call)) after
          (move_advances d (.begin call) orderly).orderly completed j
        other behind completes'
      have grown : (d.move (.begin call)).phases.length = d.phases.length + 1 := by simp [move, begin]
      rw [grown, ← next, Nat.add_right_comm] at refused
      exact (result_done c _ _).mpr refused

-- Of the calls that complete a response the first is heard, whatever else is under way, and all later ones
-- are told that it was completed. It ends the response, but for one case: it is a call that reports success, and
-- another call is under way on a response that is not at its end. Then it is turned down, and the response
-- comes to its end only if another call writes the end. Once at its end it has given its engine back.
theorem completion_ends (quiet : ((new r).play (before ++ .begin call :: after)).IsQuiet) :
    let d := (new r).play before
    let c := (new r).play (before ++ .begin call :: after)
    let calls := (before ++ .begin call :: after).flatMap Move.begun
    let displaced := call = .succeeded ∧ d.IsBusy
    (displaced → c.result? d.phases.length = some (.error .writePending)) ∧
    (¬ displaced → c.result? d.phases.length = some (.ok ())) ∧
    (∀ i other, calls[i]? = some other → other.completes = true →
      (c.result? i = some (.error Response.alreadyCompleted) ↔ i ≠ d.phases.length)) ∧
    (c.response.state = .finished ↔ ¬ displaced ∨ ∃ content, .write true content ∈ accepted calls c.phases) ∧
    c.response.resources.engines.checkedOut =
      r.resources.engines.checkedOut + if c.response.state = .compressing then 1 else 0 := by
  intro d c calls displaced
  obtain ⟨pending, heard⟩ :=
    completion_answered sound reliable r before after call fresh size ready here completes first quiet
  have refused := completion_refused sound reliable r before after call fresh size ready here completes first quiet
  have start := new_orderly r fresh
  have begins := new_attended sound r fresh size ready here
  have attended := play_attended sound reliable [] (new r) before start begins
  have whole := play_attended sound reliable [] (new r) (before ++ .begin call :: after) start begins
  have length : (before.flatMap Move.begun).length = d.phases.length := attended.length
  have own : calls[d.phases.length]? = some call := by simp [calls, Move.begun, ← length]
  refine ⟨pending, heard, refused, ?_, quiet_returned r _ fresh quiet⟩
  rw [whole.closed]
  constructor
  · rintro ⟨other, member, closes⟩
    obtain ⟨i, began, ended⟩ := (accepted_iff _ _ other).mp member
    have fine := (result_done c i _).mpr ended
    have completing (completes' : other.completes = true) : ¬ displaced := by
      intro turned
      by_cases same : i = d.phases.length
      · subst same
        cases (pending turned).symm.trans fine
      · cases ((refused i other began completes').mpr same).symm.trans fine
    cases other with
    | write last content =>
        obtain rfl : last = true := closes
        exact .inr ⟨content, member⟩
    | succeeded | failed => exact .inl (completing rfl)
    | noCompression => cases closes
  · rintro (turned | ⟨content, member⟩)
    · refine ⟨call, (accepted_iff _ _ call).mpr ⟨_, own, (result_done c _ _).mp (heard turned)⟩, ?_⟩
      cases call with
      | succeeded | failed => rfl
      | _ => cases completes
    · exact ⟨_, member, rfl⟩

end Ending

section Displaced

def opening : List Move := [.begin (.write false (some [104]))]

def remainder : List Move := [.advance 0, .advance 0, .advance 0, .begin .succeeded]

-- A success is reported while a write is under way. The write goes on to its end, and the success is
-- reported again.
def hastily : Calls Recorder Deflate.Encoder := (new trial).play (opening ++ .begin .succeeded :: remainder)

theorem hastily_phases : hastily.phases =
    [.done (.ok ()), .done (.error .writePending), .done (.error Response.alreadyCompleted)] := by rfl

theorem hastily_quiet : hastily.IsQuiet := by
  intro phase member
  rw [hastily_phases] at member
  simp only [List.mem_cons, List.not_mem_nil, or_false] at member
  rcases member with rfl | rfl | rfl <;> trivial

theorem completion_ends_hastily :
    trial.IsFresh ∧ hastily.IsQuiet ∧ hastily.response.state ≠ .finished ∧
    hastily.response.resources.engines.checkedOut = trial.resources.engines.checkedOut + 1 := by
  have fresh : trial.IsFresh := Response.new_fresh _ _ _
  obtain ⟨-, -, -, ends, out⟩ :=
    completion_ends Recorder.IsOpen recorder_reliable trial opening remainder .succeeded fresh (by decide)
    (Deflate.new_ready 1 6) ⟨rfl, rfl⟩ rfl (by decide) hastily_quiet
  have displaced : ((new trial).play opening).IsBusy := by
    refine ⟨fun quiet => ?_, by decide +kernel⟩
    exact quiet (.compressing (.new false (some [104]))) (List.mem_singleton.mpr rfl)
  have unended : ¬ ∃ content, .write true content ∈
      accepted ((opening ++ .begin .succeeded :: remainder).flatMap Move.begun) hastily.phases := by
    rw [hastily_phases]
    rintro ⟨content, member⟩
    cases List.mem_singleton.mp member
  have open_ : hastily.response.state ≠ .finished :=
    fun finished => (ends.mp finished).elim (fun heard => heard ⟨rfl, displaced⟩) unended
  have running : hastily.response.state = .compressing := by decide +kernel
  exact ⟨fresh, hastily_quiet, open_, out.trans (congrArg (_ + ·) (if_pos running))⟩

-- Both reports of the success are refused, and the response stays as it is.
theorem success_displaced :
    hastily.IsQuiet ∧ hastily.result? 1 = some (.error .writePending) ∧
    hastily.result? 2 = some (.error Response.alreadyCompleted) ∧ hastily.response.state = .compressing ∧
    trial.resources.engines.checkedOut = 0 ∧ hastily.response.resources.engines.checkedOut = 1 :=
  ⟨hastily_quiet, rfl, rfl, by decide +kernel, rfl, by decide +kernel⟩

end Displaced

end Calls

end Gateway.Gzip
