import Gateway.Proofs.Gzip.Exclusion

set_option autoImplicit false

namespace Gateway.Gzip

variable {σ κ : Type}

structure Response.IsFresh (r : Response σ κ) : Prop where
  state : r.state = .mightCompress
  completed : r.completed = false
  holder : r.holder = none
  queue : r.queue = []
  entry : r.session.entry = none
  buffer : r.session.buffer = none

theorem Response.new_fresh (sink : σ) (policy : Policy) (resources : Resources κ) :
    (Response.new sink policy resources).IsFresh := ⟨rfl, rfl, rfl, rfl, rfl, rfl⟩

namespace Calls

-- The one call with the lock stands on what its phase says. Of the others only those that wait to
-- abandon the response are under way, and each of them is in the queue, once.
structure Orderly (c : Calls σ κ) : Prop where
  free : c.response.holder = none → c.response.queue = [] ∧ c.response.Settled
  held (i : Nat) : c.response.holder = some i → ∃ phase, c.phases[i]? = some phase ∧ c.response.Holds phase
  others (i : Nat) (phase : Phase) : c.phases[i]? = some phase → c.response.holder ≠ some i →
    phase.IsDone ∨ (phase = .waiting .abandon ∧ i ∈ c.response.queue)
  queued (i : Nat) : i ∈ c.response.queue → c.phases[i]? = some (.waiting .abandon)
  apart : (c.response.holder.toList ++ c.response.queue).Nodup

theorem new_orderly (r : Response σ κ) (fresh : r.IsFresh) : (new r).Orderly where
  free _ := ⟨fresh.queue, Response.settled_of_empty r (by simp [fresh.state]) (by simp [fresh.state])
    fresh.entry fresh.buffer⟩
  held i taken := by simp [new, fresh.holder] at taken
  others i phase present := by simp [new] at present
  queued i waits := by simp [new, fresh.queue] at waits
  apart := by simp [new, fresh.holder, fresh.queue]

theorem holder_started (c : Calls σ κ) (orderly : c.Orderly) (i : Nat) (taken : c.response.holder = some i) :
    c.response.state ≠ .mightCompress := by
  obtain ⟨phase, -, holds⟩ := orderly.held i taken
  exact Response.holds_started c.response phase holds

theorem resume_idle [Sink σ] [Deflate.Compressor κ] (c : Calls σ κ) (orderly : c.Orderly) (i : Nat) (phase : Phase)
    (present : c.phases[i]? = some phase) (other : c.response.holder ≠ some i) :
    c.response.resume i phase = (c.response, phase) := by
  rcases orderly.others i phase present other with ended | ⟨rfl, -⟩
  · cases phase with
    | done result => rfl
    | _ => exact ended.elim
  · simp only [Response.resume, if_neg other]

theorem unchanged_by_idle [Sink σ] [Deflate.Compressor κ] (c : Calls σ κ) (orderly : c.Orderly) (i : Nat)
    (other : c.response.holder ≠ some i) : c.advance i = c := by
  unfold advance
  cases present : c.phases[i]? with
  | none => rfl
  | some phase =>
      obtain ⟨bound, rfl⟩ := List.getElem?_eq_some_iff.mp present
      simp only [resume_idle c orderly i _ present other, List.set_getElem_self]

section Handing

variable (c : Calls σ κ) (i : Nat) (p : Response σ κ × Phase)

theorem orderly_handed_on (orderly : c.Orderly) (taken : c.response.holder = some i) (ended : p.2.IsDone)
    (settled : p.1.Settled) (started : p.1.state ≠ .mightCompress) (holder : p.1.holder = c.response.queue.head?)
    (queue : p.1.queue = c.response.queue.tail) : (⟨p.1, c.phases.set i p.2⟩ : Calls σ κ).Orderly := by
  have apart := orderly.apart
  have waits (j : Nat) (queued : j ∈ c.response.queue) : (c.phases.set i p.2)[j]? = some (.waiting .abandon) := by
    have distinct : i ≠ j := by
      rintro rfl
      simp [taken, queued] at apart
    rw [List.getElem?_set_ne distinct]
    exact orderly.queued j queued
  refine ⟨?_, ?_, ?_, ?_, ?_⟩
  · intro free
    have none_waits : c.response.queue = [] := List.head?_eq_none_iff.mp (holder.symm.trans free)
    exact ⟨by simp [queue, none_waits], settled⟩
  · intro j next
    have first : c.response.queue.head? = some j := holder.symm.trans next
    exact ⟨_, waits j (List.mem_of_head? first), rfl, started, settled⟩
  · intro j phase present other
    by_cases same : i = j
    · subst same
      obtain ⟨held, there, -⟩ := orderly.held i taken
      obtain ⟨bound, -⟩ := List.getElem?_eq_some_iff.mp there
      obtain rfl : p.2 = phase := by simpa [List.getElem?_set_self bound] using present
      exact .inl ended
    · rw [List.getElem?_set_ne same] at present
      rcases orderly.others j phase present (by simpa [taken] using same) with ended | ⟨waiting, queued⟩
      · exact .inl ended
      · refine .inr ⟨waiting, ?_⟩
        rw [holder] at other
        rw [queue]
        cases waiters : c.response.queue with
        | nil => simp [waiters] at queued
        | cons first rest =>
            simp only [waiters, List.head?_cons, ne_eq, Option.some.injEq] at other
            rw [waiters] at queued
            exact (List.mem_cons.mp queued).resolve_left (Ne.symm other)
  · intro j queued
    rw [queue] at queued
    exact waits j (List.mem_of_mem_tail queued)
  · rw [holder, queue]
    cases waiters : c.response.queue with
    | nil => simp
    | cons first rest => simp_all

theorem orderly_kept (orderly : c.Orderly) (taken : c.response.holder = some i) (holds : p.1.Holds p.2)
    (holder : p.1.holder = c.response.holder) (queue : p.1.queue = c.response.queue) :
    (⟨p.1, c.phases.set i p.2⟩ : Calls σ κ).Orderly := by
  have apart := orderly.apart
  refine ⟨?_, ?_, ?_, ?_, ?_⟩
  · intro free
    simp [holder, taken] at free
  · intro j next
    obtain rfl : i = j := by simpa [holder, taken] using next
    obtain ⟨phase, present, -⟩ := orderly.held i taken
    exact ⟨p.2, by simp [List.getElem?_set_self', present], holds⟩
  · intro j phase present other
    have distinct : i ≠ j := by simpa [holder, taken] using other
    rw [List.getElem?_set_ne distinct] at present
    simpa only [queue] using orderly.others j phase present (by simpa [taken] using distinct)
  · intro j queued
    have distinct : i ≠ j := by
      rintro rfl
      simp_all
    rw [List.getElem?_set_ne distinct]
    exact orderly.queued j (queue ▸ queued)
  · simpa only [holder, queue] using apart

end Handing

theorem present_or_last (phases : List Phase) (last : Phase) (i : Nat) (phase : Phase)
    (present : (phases ++ [last])[i]? = some phase) :
    phases[i]? = some phase ∨ (i = phases.length ∧ phase = last) := by
  rcases Nat.lt_trichotomy i phases.length with below | rfl | above
  · exact .inl (by rwa [List.getElem?_append_left below] at present)
  · exact .inr ⟨rfl, by simpa using present.symm⟩
  · rw [List.getElem?_append_right (by omega), List.getElem?_singleton] at present
    simp [show i - phases.length ≠ 0 by omega] at present

section Entering

variable (c : Calls σ κ) (p : Response σ κ × Phase)

theorem orderly_entered (orderly : c.Orderly) (free : c.response.holder = none)
    (enters : c.response.Enters c.phases.length p) : (⟨p.1, c.phases ++ [p.2]⟩ : Calls σ κ).Orderly := by
  have ended (j : Nat) (phase : Phase) (present : c.phases[j]? = some phase) : phase.IsDone := by
    rcases orderly.others j phase present (by simp [free]) with ended | ⟨-, queued⟩
    · exact ended
    · simp [(orderly.free free).1] at queued
  rcases enters.result with ⟨⟨result, done⟩, settled, left⟩ | ⟨holds, entered⟩
  · refine ⟨fun _ => ⟨enters.queue, settled⟩, by simp [left], ?_, by simp [enters.queue], by simp [left, enters.queue]⟩
    intro j phase present _
    rcases present_or_last c.phases p.2 j phase present with old | ⟨-, rfl⟩
    · exact .inl (ended j phase old)
    · exact .inl (by simp [done, Phase.IsDone])
  · refine ⟨by simp [entered], ?_, ?_, by simp [enters.queue], by simp [entered, enters.queue]⟩
    · intro j next
      obtain rfl : c.phases.length = j := by simpa [entered] using next
      exact ⟨p.2, by simp, holds⟩
    · intro j phase present other
      rcases present_or_last c.phases p.2 j phase present with old | ⟨rfl, -⟩
      · exact .inl (ended j phase old)
      · exact absurd entered other

theorem orderly_bounced (orderly : c.Orderly) (other : Nat) (taken : c.response.holder = some other)
    (bounces : c.response.Bounces c.phases.length p) : (⟨p.1, c.phases ++ [p.2]⟩ : Calls σ κ).Orderly := by
  obtain ⟨phase, present, holds⟩ := orderly.held other taken
  have below (j : Nat) (phase : Phase) (present : c.phases[j]? = some phase) :
      (c.phases ++ [p.2])[j]? = some phase := by
    obtain ⟨bound, -⟩ := List.getElem?_eq_some_iff.mp present
    rw [List.getElem?_append_left bound, present]
  have old (j : Nat) (queued : j ∈ c.response.queue) : (c.phases ++ [p.2])[j]? = some (.waiting .abandon) :=
    below j _ (orderly.queued j queued)
  have held : p.1.Holds phase := Response.holds_congr c.response p.1 phase bounces.state bounces.session holds
  have grown : p.1.queue = c.response.queue ∨ p.2 = .waiting .abandon ∧
      p.1.queue = c.response.queue ++ [c.phases.length] :=
    bounces.result.imp (·.2) id
  have kept (j : Nat) (queued : j ∈ c.response.queue) : j ∈ p.1.queue := by
    rcases grown with same | ⟨-, longer⟩ <;> simp [*]
  refine ⟨?_, ?_, ?_, ?_, ?_⟩
  · intro free
    simp [bounces.holder, taken] at free
  · intro j next
    obtain rfl : other = j := by simpa [bounces.holder, taken] using next
    exact ⟨phase, below _ _ present, held⟩
  · intro j phase present distinct
    rw [bounces.holder] at distinct
    rcases present_or_last c.phases p.2 j phase present with before | ⟨rfl, rfl⟩
    · exact (orderly.others j phase before distinct).imp_right fun ⟨waiting, queued⟩ => ⟨waiting, kept j queued⟩
    · rcases bounces.result with ⟨⟨result, done⟩, -⟩ | ⟨waiting, longer⟩
      · exact .inl (by simp [done, Phase.IsDone])
      · exact .inr ⟨waiting, by simp [longer]⟩
  · intro j queued
    rcases grown with same | ⟨waiting, longer⟩
    · exact old j (same ▸ queued)
    · rw [longer] at queued
      rcases List.mem_append.mp queued with before | last
      · exact old j before
      · obtain rfl := List.mem_singleton.mp last
        simp [waiting]
  · rw [bounces.holder]
    rcases grown with same | ⟨-, longer⟩
    · exact same ▸ orderly.apart
    · rw [longer, ← List.append_assoc, List.nodup_append]
      refine ⟨orderly.apart, by simp, ?_⟩
      intro j listed k last
      obtain rfl := List.mem_singleton.mp last
      obtain ⟨phase, present⟩ : ∃ phase, c.phases[j]? = some phase := by
        rcases List.mem_append.mp listed with first | queued
        · obtain ⟨phase, present, -⟩ := orderly.held j (by simpa using first)
          exact ⟨phase, present⟩
        · exact ⟨_, orderly.queued j queued⟩
      exact Nat.ne_of_lt (List.getElem?_eq_some_iff.mp present).1

end Entering

variable [Sink σ] [Deflate.Compressor κ]

structure Advances (c d : Calls σ κ) : Prop where
  path : c.response.state.Leads d.response.state
  ended : c.response.state = .finished → d.response.sink = c.response.sink
  orderly : d.Orderly

omit [Deflate.Compressor κ] [Sink σ] in
theorem stays (c : Calls σ κ) (orderly : c.Orderly) : Advances c c := ⟨.refl, fun _ => rfl, orderly⟩

theorem advance_advances (c : Calls σ κ) (i : Nat) (orderly : c.Orderly) : Advances c (c.advance i) := by
  by_cases taken : c.response.holder = some i
  · obtain ⟨phase, present, holds⟩ := orderly.held i taken
    have step := Response.resume_proceeds c.response i phase holds taken
    simp only [advance, present]
    refine ⟨step.path, ?_, ?_⟩
    · exact fun ended => Response.resume_finished c.response i phase holds ended
    · rcases step.result with ⟨⟨result, done⟩, settled, started, holder, queue⟩ | ⟨kept, holder, queue⟩
      · exact orderly_handed_on c i _ orderly taken (by simp [done, Phase.IsDone]) settled started holder queue
      · exact orderly_kept c i _ orderly taken kept holder queue
  · rw [unchanged_by_idle c orderly i taken]
    exact stays c orderly

theorem begin_advances (c : Calls σ κ) (call : Call) (orderly : c.Orderly) : Advances c (c.begin call) := by
  have ended := Response.start_finished c.response c.phases.length call
  cases taken : c.response.holder with
  | none =>
      obtain ⟨quiet, settled⟩ := orderly.free taken
      have enters := Response.start_enters c.response c.phases.length call settled taken quiet
      exact ⟨enters.path, ended, orderly_entered c _ orderly taken enters⟩
  | some other =>
      have started := holder_started c orderly other taken
      have bounces := Response.start_bounces c.response c.phases.length other call taken started
      exact ⟨bounces.state ▸ .refl, ended, orderly_bounced c _ orderly other taken bounces⟩

theorem move_advances (c : Calls σ κ) (m : Move) (orderly : c.Orderly) : Advances c (c.move m) := by
  cases m with
  | begin call => exact begin_advances c call orderly
  | advance i => exact advance_advances c i orderly

theorem play_append (c : Calls σ κ) (front back : List Move) : c.play (front ++ back) = (c.play front).play back :=
  List.foldl_append

theorem play_advances (c : Calls σ κ) (moves : List Move) (orderly : c.Orderly) : Advances c (c.play moves) := by
  induction moves generalizing c with
  | nil => exact stays c orderly
  | cons m rest ih =>
      have first := move_advances c m orderly
      have later := ih (c.move m) first.orderly
      refine ⟨first.path.trans later.path, ?_, later.orderly⟩
      intro ended
      have still : (c.move m).response.state = .finished := State.finished_stays _ (ended ▸ first.path)
      exact (later.ended still).trans (first.ended ended)

end Calls

end Gateway.Gzip
