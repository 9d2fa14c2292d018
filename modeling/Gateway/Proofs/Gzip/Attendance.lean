import Gateway.Proofs.Gzip.Linear
import Gateway.Proofs.Gzip.Working

set_option autoImplicit false

namespace Gateway.Gzip

theorem accepted_iff (calls : List Call) (phases : List Phase) (call : Call) :
    call ∈ accepted calls phases ↔ ∃ i : Nat, calls[i]? = some call ∧ phases[i]? = some (Phase.done (.ok ())) := by
  have ok (phase : Phase) : phase.isOk = true ↔ phase = .done (.ok ()) := by
    cases phase with
    | done result => cases result <;> simp [Phase.isOk]
    | _ => simp [Phase.isOk]
  induction calls generalizing phases with
  | nil => simp [accepted]
  | cons first rest ih =>
      cases phases with
      | nil => simp [accepted]
      | cons phase phases =>
          have split :
              (∃ i : Nat, (first :: rest)[i]? = some call ∧
                (phase :: phases)[i]? = some (Phase.done (.ok ()))) ↔
              (first = call ∧ phase.isOk = true) ∨ call ∈ accepted rest phases := by
            constructor
            · rintro ⟨i, began, ended⟩
              cases i with
              | zero => exact .inl ⟨Option.some.inj began, (ok phase).mpr (Option.some.inj ended)⟩
              | succ i => exact .inr ((ih phases).mpr ⟨i, began, ended⟩)
            · rintro (⟨rfl, ended⟩ | later)
              · exact ⟨0, rfl, congrArg some ((ok phase).mp ended)⟩
              · obtain ⟨i, began, ended⟩ := (ih phases).mp later
                exact ⟨i + 1, began, ended⟩
          rw [split, accepted]
          cases phase.isOk <;> simp [eq_comm]

theorem accepted_set (calls : List Call) (phases : List Phase) (i : Nat) (call other : Call) (before after : Phase)
    (began : calls[i]? = some call) (present : phases[i]? = some before) (unended : before.isOk = false) :
    other ∈ accepted calls (phases.set i after) ↔ other ∈ accepted calls phases ∨
    (after.isOk = true ∧ other = call) := by
  induction calls generalizing phases i with
  | nil => cases began
  | cons first rest ih =>
      cases phases with
      | nil => cases present
      | cons phase phases =>
          cases i with
          | zero =>
              obtain rfl : phase = before := Option.some.inj present
              obtain rfl : first = call := Option.some.inj began
              simp only [List.set_cons_zero, accepted, unended]
              cases after.isOk <;> simp [or_comm]
          | succ i =>
              have later := ih phases i began present
              simp only [List.set_cons_succ, accepted]
              cases phase.isOk <;> simp [later, or_assoc]

variable {σ κ : Type}

theorem bears_unended [Deflate.Compressor κ] (r : Response σ κ) (closes : Bool) (phase : Phase)
    (bears : r.Bears closes phase) :
    phase.isOk = false := by
  cases phase with
  | done result => exact bears.elim
  | _ => rfl

namespace Calls

-- What the calls that began have come to: the response is finished just if one of those that were to close it
-- was accepted.
structure Attended [Deflate.Compressor κ] (sound : σ → Prop) (calls : List Call) (c : Calls σ κ) : Prop where
  length : calls.length = c.phases.length
  open_ : c.response.IsOpen sound
  idle : c.response.holder = none → c.response.Rests
  busy (i : Nat) : c.response.holder = some i →
    ∃ call phase, calls[i]? = some call ∧ c.phases[i]? = some phase ∧ c.response.Bears call.closes phase
  waiting (i : Nat) (call : Call) : calls[i]? = some call → c.phases[i]? = some (.waiting .abandon) → call.closes = true
  closed : c.response.state = .finished ↔ ∃ call ∈ accepted calls c.phases, call.closes = true

theorem new_attended [Deflate.Compressor κ] (sound : σ → Prop) (r : Response σ κ) (fresh : r.IsFresh)
    (size : minBufferSize ≤ r.session.bufferSize) (ready : r.resources.engines.Ready) (here : sound r.sink) :
    Attended sound [] (new r) where
  length := rfl
  open_ := .inr here
  idle _ := by
    show r.Rests
    rw [Response.Rests, fresh.state]
    exact ⟨fresh.entry, fresh.buffer, size, ready⟩
  busy i taken := absurd (fresh.holder.symm.trans taken) nofun
  waiting i call began := absurd began nofun
  closed := by
    show r.state = .finished ↔ _
    simp [fresh.state, accepted]

section Stepping

variable [Deflate.Compressor κ] (sound : σ → Prop) (calls : List Call) (c : Calls σ κ) (orderly : c.Orderly)
  (attended : Attended sound calls c)

include orderly attended

theorem attended_served (i : Nat) (call : Call) (phase : Phase) (p : Response σ κ × Phase)
    (taken : c.response.holder = some i)
    (began : calls[i]? = some call) (present : c.phases[i]? = some phase) (bears : c.response.Bears call.closes phase)
    (serves : c.response.Serves sound call.closes p) (proceeds : c.response.Proceeds p) :
    Attended sound calls ⟨p.1, c.phases.set i p.2⟩ := by
  obtain ⟨bound, -⟩ := List.getElem?_eq_some_iff.mp present
  have length : calls.length = (c.phases.set i p.2).length := by rw [List.length_set, attended.length]
  have own : (c.phases.set i p.2)[i]? = some p.2 := List.getElem?_set_self bound
  have apart (j : Nat) (distinct : i ≠ j) : (c.phases.set i p.2)[j]? = c.phases[j]? := List.getElem?_set_ne distinct
  have grown (other : Call) :=
    accepted_set calls c.phases i call other phase p.2 began present (bears_unended _ _ _ bears)
  cases serves with
  | onward bears' state open_ =>
      have holder : p.1.holder = some i := by
        rcases proceeds.result with ⟨⟨result, done⟩, -⟩ | ⟨-, kept, -⟩
        · rw [done] at bears'
          exact bears'.elim
        · exact kept.trans taken
      have more := bears_unended p.1 _ p.2 bears'
      refine ⟨length, open_, fun free => absurd (holder.symm.trans free) nofun, ?_, ?_, ?_⟩
      · intro j next
        obtain rfl : i = j := Option.some.inj (holder.symm.trans next)
        exact ⟨call, p.2, began, own, bears'⟩
      · intro j other began' waits
        by_cases same : i = j
        · subst same
          obtain rfl : call = other := Option.some.inj (began.symm.trans began')
          rw [Option.some.inj (own.symm.trans waits)] at bears'
          exact bears'.2.1
        · exact attended.waiting j other began' ((apart j same).symm.trans waits)
      · rw [state, attended.closed]
        simp only [grown, more, Bool.false_eq_true, false_and, or_false]
  | ended done rests open_ closed left =>
      obtain ⟨holder, queue⟩ : p.1.holder = c.response.queue.head? ∧ p.1.queue = c.response.queue.tail := by
        rcases proceeds.result with ⟨-, -, -, holder, queue⟩ | ⟨holds, -⟩
        · exact ⟨holder, queue⟩
        · rw [done] at holds
          exact holds.elim
      refine ⟨length, open_, fun _ => rests, ?_, ?_, ?_⟩
      · -- The lock goes to one that waits to abandon the response.
        intro j next
        have queued : j ∈ c.response.queue := List.mem_of_head? (holder.symm.trans next)
        have waits := orderly.queued j queued
        have distinct : i ≠ j := by
          rintro rfl
          have nodup := orderly.apart
          simp [taken, queued] at nodup
        obtain ⟨bound', -⟩ := List.getElem?_eq_some_iff.mp waits
        have began' := List.getElem?_eq_getElem (l := calls) (i := j) (by rw [attended.length]; exact bound')
        exact ⟨_, _, began', (apart j distinct).trans waits, rfl, attended.waiting j _ began' waits, rests⟩
      · intro j other began' waits
        by_cases same : i = j
        · subst same
          exact absurd (done.symm.trans (Option.some.inj (own.symm.trans waits))) nofun
        · exact attended.waiting j other began' ((apart j same).symm.trans waits)
      · have ok : p.2.isOk = true := by rw [done]; rfl
        simp only [grown, ok, true_and, or_and_right, exists_or, exists_eq_left, ← attended.closed]
        cases closing : call.closes with
        | true => simp [closed closing]
        | false => simp [left closing]

omit orderly in
theorem attended_joined (call : Call) (q : Response σ κ) (phase : Phase) (open_ : q.IsOpen sound)
    (idle : q.holder = none → q.Rests)
    (busy : ∀ i, q.holder = some i → (i = c.phases.length ∧ q.Bears call.closes phase) ∨
      ∃ other found, calls[i]? = some other ∧ c.phases[i]? = some found ∧ q.Bears other.closes found)
    (waiting : phase = .waiting .abandon → call.closes = true)
    (closed : q.state = .finished ↔ c.response.state = .finished ∨ (phase.isOk = true ∧ call.closes = true)) :
    Attended sound (calls ++ [call]) ⟨q, c.phases ++ [phase]⟩ := by
  have latest : (calls ++ [call])[c.phases.length]? = some call := by simp [← attended.length]
  have earlier (i : Nat) (other : Call) (found : Phase) (began : calls[i]? = some other)
      (present : c.phases[i]? = some found) :
      (calls ++ [call])[i]? = some other ∧ (c.phases ++ [phase])[i]? = some found := by
    obtain ⟨bound, -⟩ := List.getElem?_eq_some_iff.mp began
    obtain ⟨bound', -⟩ := List.getElem?_eq_some_iff.mp present
    exact ⟨(List.getElem?_append_left bound).trans began, (List.getElem?_append_left bound').trans present⟩
  refine ⟨by simp [attended.length], open_, idle, ?_, ?_, ?_⟩
  · intro i taken
    rcases busy i taken with ⟨rfl, bears⟩ | ⟨other, found, began, present, bears⟩
    · exact ⟨call, phase, latest, by simp, bears⟩
    · obtain ⟨began', present'⟩ := earlier i other found began present
      exact ⟨other, found, began', present', bears⟩
  · intro i other began waits
    rcases present_or_last c.phases phase i _ waits with old | ⟨rfl, same⟩
    · obtain ⟨bound, -⟩ := List.getElem?_eq_some_iff.mp old
      rw [List.getElem?_append_left (by rw [attended.length]; exact bound)] at began
      exact attended.waiting i other began old
    · obtain rfl : call = other := Option.some.inj (latest.symm.trans began)
      exact waiting same.symm
  · rw [closed, attended.closed, accepted_append calls [call] c.phases [phase] attended.length]
    simp only [List.mem_append, or_and_right, exists_or]
    refine or_congr_right ?_
    cases ok : phase.isOk <;> simp [accepted, ok]

theorem begin_attended [Sink σ] (reliable : Sink.Reliable sound) (call : Call) :
    Attended sound (calls ++ [call]) (c.begin call) := by
  cases holder : c.response.holder with
  | none =>
      have begins := Response.start_begins sound c.response reliable c.phases.length call (attended.idle holder) holder
        (orderly.free holder).1 attended.open_
      rw [begin]
      generalize c.response.start c.phases.length call = p at begins
      obtain ⟨q, phase⟩ := p
      cases begins with
      | entered bears taken here before after =>
          refine attended_joined sound calls c attended call q phase (.inr here) ?_ ?_ ?_ ?_
          · exact fun free => by cases taken.symm.trans free
          · intro i other
            exact .inl ⟨Option.some.inj (other.symm.trans taken), bears⟩
          · rintro rfl
            exact bears.2.1
          · simp [before, after, bears_unended q _ phase bears]
      | answered result done rests free open_ closed cause stays =>
          obtain rfl : phase = .done result := done
          refine attended_joined sound calls c attended call q _ open_ (fun _ => rests) ?_ (by simp) ?_
          · exact fun i taken => by cases free.symm.trans taken
          · have ok : (Phase.done result).isOk = true ↔ result = .ok () := by cases result <;> simp [Phase.isOk]
            rw [ok]
            exact ⟨cause, fun either => either.elim stays fun fine => closed fine.1 fine.2⟩
  | some i =>
      have started := holder_started c orderly i holder
      obtain ⟨completed, queue, phase, same, result⟩ :=
        Response.start_taken c.response c.phases.length i call holder started
      rw [begin, same]
      refine attended_joined sound calls c attended call _ phase attended.open_ ?_ ?_ ?_ ?_
      · exact fun free => by cases holder.symm.trans free
      · intro j taken
        obtain ⟨other, found, began, present, bears⟩ := attended.busy j taken
        refine .inr ⟨other, found, began, present, ?_⟩
        cases found with
        | writing last content site =>
            cases site with
            | flushing w => cases last <;> exact bears
            | _ => exact bears
        | _ => exact bears
      · rintro rfl
        rcases result with ⟨-, closes⟩ | ⟨result, done, -⟩
        · exact closes
        · cases done
      · rcases result with ⟨rfl, -⟩ | ⟨result, rfl, finished⟩
        · simp [Phase.isOk]
        · cases result with
          | error e => simp [Phase.isOk]
          | ok done => simpa [Phase.isOk] using fun closes => finished rfl closes

theorem advance_attended [Sink σ] [Deflate.LawfulCompressor κ] (reliable : Sink.Reliable sound) (i : Nat) :
    Attended sound calls (c.advance i) := by
  by_cases mine : c.response.holder = some i
  · obtain ⟨call, phase, began, present, bears⟩ := attended.busy i mine
    obtain ⟨held, there, holds⟩ := orderly.held i mine
    obtain rfl : phase = held := Option.some.inj (present.symm.trans there)
    have serves := Response.resume_serves sound c.response call.closes reliable i phase bears mine attended.open_
    have proceeds := Response.resume_proceeds c.response i phase holds mine
    simp only [advance, present]
    exact attended_served sound calls c orderly attended i call phase _ mine began present bears serves proceeds
  · rw [unchanged_by_idle c orderly i mine]
    exact attended

end Stepping

section Playing

variable [Sink σ] [Deflate.Compressor κ] [Deflate.LawfulCompressor κ] (sound : σ → Prop)
    (reliable : Sink.Reliable sound)
  (calls : List Call) (c : Calls σ κ) (moves : List Move)

include reliable

theorem play_attended (orderly : c.Orderly) (attended : Attended sound calls c) :
    Attended sound (calls ++ moves.flatMap Move.begun) (c.play moves) := by
  induction moves generalizing c calls with
  | nil => simpa [play] using attended
  | cons m rest ih =>
      have first : Attended sound (calls ++ m.begun) (c.move m) := by
        cases m with
        | begin call => exact begin_attended sound calls c orderly attended reliable call
        | advance i =>
            rw [Move.begun, List.append_nil]
            exact advance_attended sound calls c orderly attended reliable i
      rw [List.flatMap_cons, ← List.append_assoc]
      exact ih _ (c.move m) (move_advances c m orderly).orderly first

end Playing

end Calls

end Gateway.Gzip
