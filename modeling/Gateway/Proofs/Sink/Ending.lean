import Gateway.Proofs.Sink.Arrival

set_option autoImplicit false

namespace Gateway

open Channel

namespace Channel

theorem start_misses (c : Channel) (w : Writing) (open_ : c.ended = false)
    (gone : c.reader = .gone) (last : w.1 = true) :
    (c.start w.1 w.2).2 = .done (.error receiverDropped) := by
  have tidy : w.2.filter (!·.isEmpty) = w.tidy.2 := rfl
  simp only [start, open_, Bool.false_eq_true, if_false, tidy, last]
  by_cases announced : c.announced = true
  · rw [announce, if_pos announced]
    cases w.tidy.2 with
    | some data => exact congrArg Prod.snd (send_gone c (.chunk data) _ gone)
    | none => exact congrArg Prod.snd (send_gone { c with ended := true } .eof _ gone)
  · rw [announce, if_neg announced, if_pos gone]

end Channel

namespace Transfer

def IsEnded (x : Transfer) : Prop := x.told.find? Told.isEnd = some .ended

def Missed (answer : Writing × Sent) : Prop :=
  answer.1.1 = true ∧ (answer.2 = .error receiverDropped ∨ answer.2 = .error bodyDropped)

def Repeats (w : Writing) (earlier : List (Writing × Sent)) : Prop :=
  w.tidy.2 = none ∧ ∃ answer ∈ earlier, Missed answer

def IsEnding (x : Transfer) : Prop :=
  ∃ w, x.current = some (w, .ending) ∨ ∃ result, Missed (w, result) ∧ x.current = some (w, .done result)

structure Answered (x : Transfer) : Prop where
  closing : x.channel.ended = true → x.IsEnded ∨ (∃ answer ∈ x.returned, Missed answer) ∨ x.IsEnding
  pulled : ∀ w, x.current = some (w, .ending) → w.1 = true ∧ (x.channel.slot = .taken → x.IsEnded)
  done : ∀ w, x.current = some (w, .done (.ok ())) → w.1 = true → x.IsEnded ∨ Repeats w x.returned
  returned : ∀ (i : Nat) (w : Writing), x.returned[i]? = some (w, .ok ()) → w.1 = true →
    x.IsEnded ∨ Repeats w (x.returned.take i)

theorem new_answered (head : Head) : (new head).Answered where
  closing := nofun
  pulled := nofun
  done := nofun
  returned i w present := by simp [new] at present

theorem ended_stays (x y : Transfer) (told : ∃ more, y.told = x.told ++ more) (ended : x.IsEnded) : y.IsEnded := by
  obtain ⟨more, told⟩ := told
  rw [IsEnded, told, List.find?_append, show x.told.find? Told.isEnd = some .ended from ended]
  rfl

theorem answered_congr (x y : Transfer) (ended : y.channel.ended = x.channel.ended) (current : y.current = x.current)
    (returned : y.returned = x.returned) (told : ∃ more, y.told = x.told ++ more)
    (taken : ∀ w, x.current = some (w, .ending) → y.channel.slot = .taken → x.channel.slot = .taken ∨ y.IsEnded)
    (answered : x.Answered) : y.Answered := by
  have stays := ended_stays x y told
  refine ⟨?_, ?_, ?_, ?_⟩
  · rw [ended, returned, IsEnding, current]
    exact fun closing => (answered.closing closing).imp_left stays
  · rw [current]
    intro w here
    obtain ⟨last, pulled⟩ := answered.pulled w here
    exact ⟨last, fun slot => (taken w here slot).elim (fun before => stays (pulled before)) id⟩
  · rw [current, returned]
    exact fun w here last => (answered.done w here last).imp_left stays
  · rw [returned]
    exact fun i w here last => (answered.returned i w here last).imp_left stays

section Reading

variable (x : Transfer) (n : Nat) (frames : List Bytes) (ending : Option Sent) (sound : x.Sound n frames ending)

include sound

theorem poll_ends (size : PayloadSize) (reader : x.channel.reader = .reading size false)
    (slot : x.channel.slot = .full .eof) :
    (x.move .poll).IsEnded := by
  have unended := (sound.reading size false reader).2.2
  have none_yet : x.told.find? Told.isEnd = none := by
    rw [List.find?_eq_none]
    have reached := sound.account.told_end
    rw [unended] at reached
    simpa using reached
  have polls : x.channel.poll.2 = .ended := by simp [poll, reader, slot]
  rw [IsEnded, move, polls, List.find?_append, none_yet]
  rfl

theorem poll_answered (answered : x.Answered) : (x.move .poll).Answered := by
  refine answered_congr x _ ?_ rfl rfl (x.move_told .poll) ?_ answered
  · simp only [move, poll]
    split
    · split
      · rfl
      · rfl
      · split <;> rfl
    · rfl
    · rfl
  · intro w current taken
    have standing := sound.standing
    rw [current] at standing
    cases standing with
    | ended w closing slot all => exact .inl slot
    | cut w closing slot gone => simp [move, poll, gone, slot] at taken
    | ending w closing full present all =>
        cases reader : x.channel.reader with
        | reading size ended =>
            cases ended with
            | false => exact .inr (poll_ends x n frames ending sound size reader full)
            | true => simp [move, poll, reader, full] at taken
        | waiting => simp [move, poll, reader, full] at taken
        | gone => exact absurd reader present

end Reading

section Writing

variable (x : Transfer)

theorem answered_going (w : Writing) (c : Channel) (phase : Phase) (opening : Option Head) (answered : x.Answered)
    (closing : c.ended = true → x.channel.ended = true ∧ x.current = none ∨ x.IsEnded ∨
      phase = .ending ∨ ∃ result, Missed (w, result) ∧ phase = .done result)
    (pulled : phase = .ending → w.1 = true ∧ (c.slot = .taken → x.IsEnded))
    (done : phase = .done (.ok ()) → w.1 = true → x.IsEnded ∨ Repeats w x.returned) :
    Answered { x with channel := c, opening, current := some (w, phase) } := by
  have missed : x.channel.ended = true → x.current = none → x.IsEnded ∨ ∃ answer ∈ x.returned, Missed answer := by
    intro ended idle
    rcases answered.closing ended with reached | missed | ⟨v, here⟩
    · exact .inl reached
    · exact .inr missed
    · simp [idle] at here
  refine ⟨?_, ?_, ?_, answered.returned⟩
  · intro ended
    rcases closing ended with ⟨before, idle⟩ | reached | rfl | ⟨result, misses, rfl⟩
    · exact (missed before idle).imp_right .inl
    · exact .inl reached
    · exact .inr (.inr ⟨w, .inl rfl⟩)
    · exact .inr (.inr ⟨w, .inr ⟨result, misses, rfl⟩⟩)
  · rintro v here
    obtain ⟨rfl, rfl⟩ : w = v ∧ phase = .ending := by simpa using here
    exact pulled rfl
  · rintro v here
    obtain ⟨rfl, rfl⟩ : w = v ∧ phase = .done (.ok ()) := by simpa using here
    exact done rfl

theorem answered_failed (w : Writing) (c : Channel) (e : SendError) (opening : Option Head) (answered : x.Answered)
    (missed : c.ended = true → Missed (w, .error e)) :
    Answered { x with channel := c, opening, current := some (w, .done (.error e)) } :=
  answered_going x w c _ opening answered (fun past => .inr (.inr (.inr ⟨_, missed past, rfl⟩))) nofun nofun

theorem enter_answered (w : Writing) (idle : x.current = none) (answered : x.Answered) : (x.enter w).Answered := by
  have starts := start_starts x.channel w
  have misses := x.channel.start_misses w
  unfold enter
  generalize x.channel.start w.1 w.2 = p at starts misses
  cases starts with
  | late closing result fine =>
      refine answered_going x w _ _ _ answered (fun _ => .inl ⟨closing, idle⟩) nofun fun ok _ => ?_
      obtain rfl := Phase.done.inj ok
      rcases answered.closing closing with reached | missed | ⟨v, here⟩
      · exact .inl reached
      · exact .inr ⟨fine rfl, missed⟩
      · simp [idle] at here
  | deserted open_ gone ended closing result fine =>
      have missed (last : w.1 = true) : result = .error receiverDropped := Phase.done.inj (misses open_ gone last)
      refine answered_going x w _ _ _ answered (fun past => ?_) nofun fun ok last => ?_
      · exact .inr (.inr (.inr ⟨result, ⟨closing past, .inl (missed (closing past))⟩, rfl⟩))
      · cases (missed last).symm.trans (Phase.done.inj ok)
  | nothing open_ present content more =>
      refine answered_going x w _ _ _ answered (fun past => ?_) nofun fun _ last => ?_
      · cases open_.symm.trans past
      · cases more.symm.trans last
  | content open_ present data content =>
      refine answered_going x w _ _ _ answered (fun past => ?_) nofun nofun
      cases open_.symm.trans past
  | ending open_ present content last =>
      exact answered_going x w _ _ _ answered (fun _ => .inr (.inr (.inl rfl))) (fun _ => ⟨last, nofun⟩) nofun

theorem settle_answered (w : Writing) (result : Sent) (current : x.current = some (w, .done result))
    (answered : x.Answered) :
    (x.settle w result).Answered := by
  refine ⟨?_, nofun, nofun, ?_⟩
  · intro ended
    rcases answered.closing ended with reached | ⟨answer, member, missed⟩ | ⟨v, ending | ⟨sent, missed, done⟩⟩
    · exact .inl reached
    · exact .inr (.inl ⟨answer, List.mem_append_left _ member, missed⟩)
    · simp [current] at ending
    · obtain ⟨rfl, rfl⟩ : w = v ∧ result = sent := by simpa [current] using done
      exact .inr (.inl ⟨(w, result), by simp [settle], missed⟩)
  · intro i v present last
    change (x.returned ++ [(w, result)])[i]? = _ at present
    change x.IsEnded ∨ Repeats v ((x.returned ++ [(w, result)]).take i)
    rcases Nat.lt_trichotomy i x.returned.length with below | rfl | above
    · rw [List.getElem?_append_left below] at present
      rw [List.take_append_of_le_length (Nat.le_of_lt below)]
      exact answered.returned i v present last
    · obtain ⟨rfl, rfl⟩ : w = v ∧ result = .ok () := by simpa using present
      rw [List.take_left]
      exact answered.done w current last
    · rw [List.getElem?_eq_none (by rw [List.length_append]; exact above)] at present
      cases present

variable (n : Nat) (frames : List Bytes) (ending : Option Sent) (sound : x.Sound n frames ending)

include sound

theorem resume_answered (w : Writing) (phase : Phase) (current : x.current = some (w, phase)) (answered : x.Answered) :
    (x.resume w phase).Answered := by
  have same (waits : x.channel.resume phase = (x.channel, phase)) : (x.resume w phase).Answered := by
    rw [resume_waits x w phase current waits]
    exact answered
  have standing := sound.standing
  rw [current] at standing
  cases standing with
  | offered w data content open_ slot present all => exact same (x.channel.resume_full _ _ slot)
  | ending w closing slot present all => exact same (x.channel.resume_full _ _ slot)
  | done w result empty all => exact same rfl
  | taken w open_ slot all =>
      cases last : w.1 with
      | false =>
          rw [resume, resume_content _ slot]
          refine answered_going x w _ _ _ answered (fun past => ?_) (fun waits => ?_) fun _ closes => ?_
          · cases open_.symm.trans past
          · cases waits
          · cases last.symm.trans closes
      | true =>
          by_cases gone : x.channel.reader = .gone
          · rw [resume, resume_last_gone _ slot gone]
            exact answered_failed x w _ _ _ answered fun _ => ⟨last, .inl rfl⟩
          · rw [resume, resume_last _ slot gone]
            refine answered_going x w _ _ _ answered (fun _ => .inr (.inr (.inl rfl)))
              (fun _ => ⟨last, fun taken => ?_⟩) fun done => ?_
            · cases taken
            · cases done
  | lost w open_ slot gone =>
      rw [resume, resume_lost _ _ slot]
      exact answered_failed x w _ _ _ answered fun past => absurd (open_.symm.trans past) Bool.false_ne_true
  | ended w closing slot all =>
      have reached : x.IsEnded := (answered.pulled w current).2 slot
      rw [resume, resume_ending _ slot]
      refine answered_going x w _ _ _ answered (fun _ => .inr (.inl reached)) (fun waits => ?_) fun _ _ => .inl reached
      cases waits
  | cut w closing slot gone =>
      have last : w.1 = true := (answered.pulled w current).1
      rw [resume, resume_cut _ slot]
      exact answered_failed x w _ _ _ answered fun _ => ⟨last, .inr rfl⟩

theorem proceed_answered (answered : x.Answered) : x.proceed.Answered := by
  unfold proceed
  split
  · exact answered
  · cases current : x.current with
    | some c =>
        obtain ⟨w, phase⟩ := c
        cases phase with
        | done result => exact x.settle_answered w result current answered
        | _ => exact x.resume_answered n frames ending sound w _ current answered
    | none =>
        cases due : x.due with
        | nil => exact answered
        | cons w rest =>
            exact enter_answered { x with due := rest } w current
              (answered_congr x _ rfl rfl rfl ⟨[], (List.append_nil _).symm⟩ (fun _ _ => .inl) answered)

theorem move_answered (m : Move) (answered : x.Answered) : (x.move m).Answered := by
  have still (y : Transfer) (ended : y.channel.ended = x.channel.ended) (current : y.current = x.current)
      (returned : y.returned = x.returned) (told : ∃ more, y.told = x.told ++ more)
      (taken : y.channel.slot = .taken → x.channel.slot = .taken) : y.Answered :=
    answered_congr x y ended current returned told (fun _ _ slot => .inl (taken slot)) answered
  have idle (free : x.isIdle = true) : x.current = none := by
    simp only [isIdle, Bool.and_eq_true, Option.isNone_iff_eq_none] at free
    exact free.1.1
  have told := x.move_told m
  cases m with
  | edit head =>
      rw [move] at told ⊢
      split
      · exact still _ rfl rfl rfl ⟨[], (List.append_nil _).symm⟩ id
      · exact answered
  | write last content =>
      rw [move]
      split
      · rename_i free
        exact x.enter_answered (last, content) (idle free) answered
      · exact answered
  | body sent =>
      rw [move]
      split
      · exact still _ rfl rfl rfl ⟨[], (List.append_nil _).symm⟩ id
      · exact answered
  | proceed => exact x.proceed_answered n frames ending sound answered
  | close => exact still _ rfl rfl rfl told id
  | accept =>
      have same : x.channel.accept.1.ended = x.channel.ended ∧ x.channel.accept.1.slot = x.channel.slot := by
        unfold accept
        split
        · split
          · exact ⟨rfl, rfl⟩
          · split <;> exact ⟨rfl, rfl⟩
        · exact ⟨rfl, rfl⟩
      exact still _ same.1 rfl rfl told same.2.symm.trans
  | poll => exact poll_answered x n frames ending sound answered
  | leave =>
      refine still _ rfl rfl rfl told fun taken => ?_
      cases slot : x.channel.slot <;> simp [move, drop, slot] at taken ⊢

theorem play_answered (moves : List Move) (answered : x.Answered) : (x.play moves).Answered := by
  induction moves generalizing x n frames ending with
  | nil => exact answered
  | cons m rest ih =>
      obtain ⟨n', frames', ending', next⟩ := move_sound x n frames ending sound m
      exact ih (x.move m) n' frames' ending' next (x.move_answered n frames ending sound m answered)

end Writing

theorem ended_account (opening : Option Head) (told : List Told) (frames : List Bytes) (ending : Option Sent)
    (account : Account opening told frames ending) (ended : told.find? Told.isEnd = some .ended) :
    ending = some (.ok ()) := by
  have silent : (frames.map Told.frame).find? Told.isEnd = none := by
    rw [List.find?_eq_none]
    simp [Told.isEnd]
  cases account with
  | silent => cases ended
  | refused unopened => cases ended
  | reading head frames opened => cases silent.symm.trans ended
  | ended head frames more opened => rfl
  | failed head frames more opened =>
      have failed :
          (Told.head head ::
            (frames.map .frame ++ .failed droppedBeforeEnd :: List.replicate more .ended)).find?
          Told.isEnd = some (.failed droppedBeforeEnd) := by
        rw [List.find?_cons_of_neg Bool.false_ne_true, List.find?_append, silent]
        rfl
      cases failed.symm.trans ended

-- A last write is accepted if the reader has pulled the end, and with it all that was written before. There
-- is one other case: it is without content, and some earlier last write missed the reader.
theorem accepted_last (head : Head) (moves : List Move) (i : Nat) (w : Writing)
    (accepted : ((new head).play moves).returned[i]? = some (w, .ok ())) (last : w.1 = true) :
    let x := (new head).play moves
    (∃ (n : Nat) (frames : List Bytes), Account x.opening x.told frames (some (.ok ())) ∧
      frames = contents (x.writings.take n) ∧ (w.tidy.2 ≠ none → i < n)) ∨
    Repeats w (x.returned.take i) := by
  intro x
  have start := new_sound head
  obtain ⟨n, frames, ending, sound⟩ := play_sound (new head) 0 [] none start moves
  have answered := play_answered (new head) 0 [] none start moves (new_answered head)
  refine (answered.returned i w accepted last).imp_left fun ended => ?_
  obtain rfl := ended_account _ _ _ _ sound.account ended
  exact ⟨n, frames, sound.account, sound.pulled, sound.came i w accepted⟩

def deserted : List Move :=
  [.write false (some [104]), .accept, .poll, .leave, .proceed, .proceed, .write true none, .proceed,
    .write true none, .proceed]

theorem accepted_last_greeting :
    ((new .empty).play (greeting ++ [.poll, .proceed, .poll, .proceed, .proceed])).returned[1]? =
      some ((true, some [105]), .ok ()) ∧
    ∃ frames, Account (some .empty) [.head .empty, .frame [104], .frame [105], .ended] frames (some (.ok ())) := by
  have accepted : ((new .empty).play (greeting ++ [.poll, .proceed, .poll, .proceed, .proceed])).returned[1]? =
      some ((true, some [105]), .ok ()) := rfl
  refine ⟨accepted, ?_⟩
  rcases accepted_last .empty _ 1 _ accepted rfl with ⟨n, frames, account, -, -⟩ | ⟨empty, -⟩
  · exact ⟨frames, account⟩
  · cases empty

-- The end of the response is accepted at the second attempt, and the reader has never pulled it.
theorem unread_end_accepted :
    ((new .empty).play deserted).returned =
      [((false, some [104]), .ok ()), ((true, none), .error receiverDropped), ((true, none), .ok ())] ∧
    ((new .empty).play deserted).told = [.head .empty, .frame [104]] ∧
    ¬ ((new .empty).play deserted).IsEnded := by
  have told : ((new .empty).play deserted).told.find? Told.isEnd = none := rfl
  exact ⟨rfl, rfl, fun ended => nomatch told.symm.trans ended⟩

end Transfer

end Gateway
