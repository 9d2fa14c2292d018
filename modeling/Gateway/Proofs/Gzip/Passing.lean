import Gateway.Proofs.Gzip.Lifecycle
import Gateway.Proofs.Gzip.Turns
import Gateway.Proofs.Sink.Conduct

set_option autoImplicit false

namespace Gateway.Gzip.Response

variable {σ κ : Type} [Sink σ]

def tidied (content : Option Bytes) : Option Bytes := content.filter (!·.isEmpty)

def handedOn (r : Response σ κ) (last : Bool) (content : Option Bytes) : Response σ κ :=
  let (sink, result) := Sink.write r.sink last content
  { r with sink, state := if last || !result.isOk then .finished else .notCompressing }.unlock

def declined (r : Response σ κ) (headers : Header.Map) : Response σ κ :=
  { (r.setHeaders headers).lock 0 with state := .notCompressing }

section Settling

variable [Deflate.Compressor κ] (r : Response σ κ) (last : Bool) (content : Option Bytes)

theorem handing_settles (me : Nat) (state : r.state = .notCompressing) :
    settle me r (.writing last content .passing) =
      some (r.handedOn last content, (Sink.write r.sink last content).2) := by
  rw [settle_active me r (.writing last content .passing) trivial, resume, handedOn]
  cases Sink.write r.sink last content with
  | mk sink result =>
      cases result with
      | error e => cases last <;> exact settle_done me _ _
      | ok done =>
          cases last with
          | true => exact settle_done me _ _
          | false =>
              obtain ⟨now, completed, holder, queue, sink', session, resources, policy, vary, tags⟩ := r
              obtain rfl : now = .notCompressing := state
              exact settle_done me _ _

theorem passing_settles (state : r.state = .notCompressing) (free : r.holder = none) :
    settle 0 (r.dispatch 0 last content).1 (r.dispatch 0 last content).2 =
      some ((r.lock 0).handedOn last content, (Sink.write r.sink last content).2) := by
  simp only [dispatch, state, free, Option.isNone_none, if_true]
  exact (r.lock 0).handing_settles last content 0 state

theorem finished_settles (state : r.state = .finished) :
    settle 0 (r.dispatch 0 last content).1 (r.dispatch 0 last content).2 =
      some (r, if content.isSome then .error (.illegalState State.finished.name) else .ok ()) := by
  simp only [dispatch, state]
  exact settle_done 0 _ _

theorem commit_plain (headers : Header.Map) (plain : r.judge r.head last content = .plain headers) :
    r.commit last content =
      ({ r.setHeaders headers with state := .notCompressing }, .writing last content .passing) := by
  rw [commit, plain]
  rfl

theorem plain_settles (state : r.state = .mightCompress) (free : r.holder = none) (headers : Header.Map)
    (plain : r.judge r.head last content = .plain headers) :
    settle 0 (r.dispatch 0 last content).1 (r.dispatch 0 last content).2 =
      some ((r.declined headers).handedOn last content, (Sink.write (r.declined headers).sink last content).2) := by
  have commits : r.dispatch 0 last content = (r.declined headers, .writing last content .passing) := by
    rw [dispatch, state]
    dsimp only
    rw [acquire_free ({ r with state := .committing } : Response σ κ) 0 _ free, run]
    exact commit_plain ({ r with state := .committing }.lock 0) last content headers plain
  rw [commits]
  exact (r.declined headers).handing_settles last content 0 rfl

end Settling

section HandedOn

variable (r : Response (Logged σ) κ) (last : Bool) (content : Option Bytes)

theorem handed_on_state : (r.handedOn last content).state =
    if last || !(Sink.write r.sink last content).2.isOk then .finished else .notCompressing := rfl

theorem handed_on_quiet (quiet : r.queue = []) :
    (r.handedOn last content).holder = none ∧ (r.handedOn last content).queue = [] := by
  simp [handedOn, unlock, quiet]

theorem handed_on_log : (r.handedOn last content).sink.log =
    r.sink.log ++ [⟨Sink.head r.sink.sink, last, content, (Sink.write r.sink last content).2⟩] := rfl

theorem handed_on_writings : (r.handedOn last (tidied content)).sink.log.map Delivery.writing =
    r.sink.log.map Delivery.writing ++ [Writing.tidy (last, content)] := by
  rw [handed_on_log, List.map_append]
  rfl

theorem handed_on_committed : (r.handedOn last content).sink.committed = some r.sink.upcoming := by
  have more : (r.handedOn last content).sink.log ≠ [] := by
    rw [handed_on_log]
    exact List.append_ne_nil_of_right_ne_nil _ (List.cons_ne_nil _ _)
  have same : (r.handedOn last content).sink.upcoming = r.sink.upcoming := Logged.write_upcoming r.sink last content
  rw [Logged.written_committed _ more, same]

end HandedOn

section Logs

omit [Sink σ]

variable (done : Bool) (head : Head) (asked : List Writing) (r : Response (Logged σ) κ)

structure Passes : Prop where
  completed : r.completed = done
  free : r.holder = none
  quiet : r.queue = []
  committed : r.sink.committed = some head
  relayed : ∃ front rest, asked = front ++ rest ∧ r.sink.log.map Delivery.writing = front.map Writing.tidy ∧
    (r.state = .notCompressing ∧ rest = [] ∨
      r.state = .finished ∧ ∃ d, r.sink.log.getLast? = some d ∧ (d.last = true ∨ d.result ≠ .ok ()))

theorem passes_relays (passes : r.Passes done head asked) : Relays asked r.sink.log := by
  obtain ⟨front, rest, whole, log, course⟩ := passes.relayed
  refine ⟨front, rest, whole, log, ?_⟩
  rcases course with ⟨-, all⟩ | ⟨-, ended⟩
  · exact fun some_left => absurd all some_left
  · exact fun _ => ended

variable [Sink σ]

theorem handed_on_passes (last : Bool) (content : Option Bytes) (completed : r.completed = done) (quiet : r.queue = [])
    (opened : r.sink.upcoming = head) (logged : r.sink.log.map Delivery.writing = asked.map Writing.tidy) :
    (r.handedOn last (tidied content)).Passes done head (asked ++ [(last, content)]) := by
  obtain ⟨free, quiet⟩ := r.handed_on_quiet last (tidied content) quiet
  refine ⟨completed, free, quiet, ?_, asked ++ [(last, content)], [], (List.append_nil _).symm, ?_, ?_⟩
  · rw [handed_on_committed, opened]
  · rw [handed_on_writings, List.map_append, logged]
    rfl
  · rw [handed_on_state, handed_on_log, List.getLast?_concat]
    by_cases ends : (last || !(Sink.write r.sink last (tidied content)).2.isOk) = true
    · refine .inr ⟨if_pos ends, _, rfl, ?_⟩
      rw [Bool.or_eq_true, Bool.not_eq_true'] at ends
      refine ends.imp_right fun failed ok => ?_
      rw [show (Sink.write r.sink last (tidied content)).2 = .ok () from ok] at failed
      cases failed
    · exact .inl ⟨if_neg ends, rfl⟩

variable [Deflate.Compressor κ]

theorem passes_settles (passes : r.Passes done head asked) (last : Bool) (content : Option Bytes) :
    ∃ q result, settle 0 (r.dispatch 0 last (tidied content)).1 (r.dispatch 0 last (tidied content)).2 =
      some (q, result) ∧
      q.Passes done head (asked ++ [(last, content)]) := by
  obtain ⟨completed, free, quiet, committed, front, rest, whole, log, course⟩ := passes
  rcases course with ⟨state, rfl⟩ | ⟨state, ended⟩
  · rw [List.append_nil] at whole
    refine ⟨_, _, r.passing_settles last (tidied content) state free, ?_⟩
    rw [whole]
    exact handed_on_passes done head front (r.lock 0) last content completed quiet
      (Logged.committed_upcoming r.sink head committed) log
  · refine ⟨_, _, r.finished_settles last (tidied content) state, completed, free, quiet, committed, front,
      rest ++ [(last, content)], ?_, log, .inr ⟨state, ended⟩⟩
    rw [whole, List.append_assoc]

theorem write_passes (passes : r.Passes done head asked) (last : Bool) (content : Option Bytes) :
    (Sink.write r last content).1.Passes done head (asked ++ [(last, content)]) := by
  obtain ⟨q, result, settled, later⟩ := r.passes_settles done head asked passes last content
  rw [show Sink.write r last content = (q, result) from call_settled r (.write last content) q result settled]
  exact later

omit [Deflate.Compressor κ] in
theorem edit_passes (passes : r.Passes done head asked) (edited : Head) :
    ({ r with sink := Sink.setHead r.sink edited } : Response (Logged σ) κ).Passes done head asked := by
  obtain ⟨completed, free, quiet, committed, relayed⟩ := passes
  exact ⟨completed, free, quiet, committed, relayed⟩

theorem conduct_passes (acts : List Act) (passes : r.Passes done head asked) :
    (Act.conduct r acts).Passes done head (asked ++ Act.writings acts) := by
  induction acts generalizing r asked with
  | nil =>
      rw [Act.writings, List.filterMap_nil, List.append_nil]
      exact passes
  | cons act rest ih =>
      cases act with
      | edit edited => exact ih asked _ (r.edit_passes done head asked passes edited)
      | write last content =>
          rw [Act.writings, List.filterMap_cons_some (f := Act.writing?) rfl, List.append_cons]
          exact ih _ _ (r.write_passes done head asked passes last content)

end Logs

section Opening

variable [Deflate.Compressor κ] (r : Response (Logged σ) κ) (headers : Header.Map) (editable : Sink.Editable σ)

include editable

theorem first_passes (last : Bool) (content : Option Bytes) (state : r.state = .mightCompress) (free : r.holder = none)
    (quiet : r.queue = []) (unwritten : r.sink.log = [])
    (plain : r.judge r.head last (tidied content) = .plain headers) :
    ∃ q result, settle 0 (r.dispatch 0 last (tidied content)).1 (r.dispatch 0 last (tidied content)).2 =
      some (q, result) ∧
      q.Passes r.completed { r.head with headers } [(last, content)] := by
  refine ⟨_, _, r.plain_settles last (tidied content) state free headers plain, ?_⟩
  refine handed_on_passes r.completed _ [] (r.declined headers) last content rfl quiet ?_ ?_
  · exact Logged.edited_upcoming editable r.sink _ unwritten
  · exact congrArg (List.map Delivery.writing) unwritten

theorem conduct_opens (acts : List Act) (fresh : r.IsFresh) (unwritten : r.sink.log = [])
    (plain : ∀ last content, r.judge (Act.opening r.head acts) last content = .plain headers) :
    Act.writings acts = [] ∧
      (∃ sink, Act.conduct r acts = { r with sink } ∧ sink.log = [] ∧ Sink.head sink = Act.opening r.head acts) ∨
    Act.writings acts ≠ [] ∧
      (Act.conduct r acts).Passes false { Act.opening r.head acts with headers } (Act.writings acts) := by
  induction acts generalizing r with
  | nil => exact .inl ⟨rfl, r.sink, rfl, unwritten, rfl⟩
  | cons act rest ih =>
      cases act with
      | edit edited =>
          have here : (Sink.setHead r edited).head = edited := editable r.sink.sink edited
          have fresh' : (Sink.setHead r edited).IsFresh :=
            ⟨fresh.state, fresh.completed, fresh.holder, fresh.queue, fresh.entry, fresh.buffer⟩
          have later := ih (Sink.setHead r edited) fresh' unwritten (by rw [here]; exact plain)
          rw [here] at later
          exact later
      | write last content =>
          obtain ⟨q, result, settled, passes⟩ := r.first_passes headers editable last content fresh.state fresh.holder
            fresh.queue unwritten (plain _ _)
          rw [fresh.completed] at passes
          have wrote : Act.apply r (.write last content) = q :=
            congrArg Prod.fst (call_settled r (.write last content) q result settled)
          refine .inr ⟨by simp [Act.writings, Act.writing?], ?_⟩
          rw [Act.conduct, List.foldl_cons, wrote]
          exact conduct_passes false _ [(last, content)] q rest passes

end Opening

end Gateway.Gzip.Response
