import Gateway.Proofs.Sink.Pulling
import Gateway.Proofs.Sink.Transfer

set_option autoImplicit false

namespace Gateway

namespace Channel

def announcing (c : Channel) : Channel :=
  { c with announced := true, offered := if c.announced then c.offered else some c.head }

inductive Starts (c : Channel) (w : Writing) : Channel × Phase → Prop where
  | late (closing : c.ended = true) (result : Sent) (fine : result = .ok () → w.tidy.2 = none) :
      Starts c w (c, .done result)
  | deserted (open_ : c.ended = false) (gone : c.reader = .gone) (ended : Bool) (closing : ended = true → w.1 = true)
      (result : Sent) (fine : result = .ok () → w.tidy.2 = none) :
      Starts c w ({ c with announced := true, ended }, .done result)
  | nothing (open_ : c.ended = false) (present : c.reader ≠ .gone) (content : w.tidy.2 = none) (more : w.1 = false) :
      Starts c w (c.announcing, .done (.ok ()))
  | content (open_ : c.ended = false) (present : c.reader ≠ .gone) (data : Bytes) (content : w.tidy.2 = some data) :
      Starts c w ({ c.announcing with slot := .full (.chunk data) }, .content w.1)
  | ending (open_ : c.ended = false) (present : c.reader ≠ .gone) (content : w.tidy.2 = none) (last : w.1 = true) :
      Starts c w ({ c.announcing with ended := true, slot := .full .eof }, .ending)

theorem announcing_announced (c : Channel) (announced : c.announced = true) : c.announcing = c := by
  obtain ⟨head, announced', offered, slot, ended, closed, reader⟩ := c
  obtain rfl : announced' = true := announced
  rfl

theorem announce_present (c : Channel) (present : c.reader ≠ .gone) : c.announce = (c.announcing, .ok ()) := by
  cases announced : c.announced with
  | true => simp [announce, announced, announcing_announced c announced]
  | false => simp [announce, announcing, announced, present]

theorem announce_gone (c : Channel) (gone : c.reader = .gone) :
    ∃ result, c.announce = ({ c with announced := true }, result) := by
  obtain ⟨head, announced, offered, slot, ended, closed, reader⟩ := c
  cases announced with
  | true => exact ⟨.ok (), rfl⟩
  | false => exact ⟨.error receiverDropped, if_pos gone⟩

theorem send_present (c : Channel) (item : PayloadItem) (phase : Phase) (present : c.reader ≠ .gone) :
    c.send item phase = ({ c with slot := .full item }, phase) := if_neg present

theorem send_gone (c : Channel) (item : PayloadItem) (phase : Phase) (gone : c.reader = .gone) :
    c.send item phase = (c, .done (.error receiverDropped)) := if_pos gone

theorem start_deserted (c : Channel) (w : Writing) (open_ : c.ended = false) (gone : c.reader = .gone) :
    Starts c w (c.start w.1 w.2) := by
  have tidy : w.2.filter (!·.isEmpty) = w.tidy.2 := rfl
  obtain ⟨result, announce⟩ := announce_gone c gone
  simp only [start, open_, Bool.false_eq_true, if_false, tidy, announce]
  cases result with
  | error e => exact .deserted open_ gone false nofun (.error e) nofun
  | ok done =>
      cases content : w.tidy.2 with
      | some data =>
          dsimp only
          rw [send_gone _ _ _ (by exact gone)]
          exact .deserted open_ gone false nofun (.error receiverDropped) nofun
      | none =>
          cases last : w.1 with
          | false => exact .deserted open_ gone false nofun (.ok ()) fun _ => content
          | true =>
              simp only [sendEnd, if_true]
              rw [send_gone _ _ _ (by exact gone)]
              exact .deserted open_ gone true (fun _ => last) (.error receiverDropped) nofun

theorem start_starts (c : Channel) (w : Writing) : Starts c w (c.start w.1 w.2) := by
  have tidy : w.2.filter (!·.isEmpty) = w.tidy.2 := rfl
  cases closing : c.ended with
  | true =>
      simp only [start, closing, if_true, tidy]
      refine .late closing _ ?_
      cases w.tidy.2 <;> simp
  | false =>
      by_cases gone : c.reader = .gone
      · exact start_deserted c w closing gone
      · simp only [start, closing, Bool.false_eq_true, if_false, tidy, announce_present c gone]
        cases content : w.tidy.2 with
        | some data =>
            dsimp only
            rw [send_present _ _ _ (by exact gone)]
            exact .content closing gone data content
        | none =>
            cases last : w.1 with
            | false => exact .nothing closing gone content last
            | true =>
                simp only [sendEnd, if_true]
                rw [send_present _ _ _ (by exact gone)]
                exact .ending closing gone content last

@[simp] theorem send_closed (c : Channel) (item : PayloadItem) (phase : Phase) :
    (c.send item phase).1.closed = c.closed := by
  rw [send]
  split <;> rfl

@[simp] theorem send_end_closed (c : Channel) (last : Bool) : (c.sendEnd last).1.closed = c.closed := by
  cases last
  · rfl
  · exact send_closed _ _ _

theorem start_closed (c : Channel) (w : Writing) : (c.start w.1 w.2).1.closed = c.closed := by
  have starts := start_starts c w
  generalize c.start w.1 w.2 = p at starts
  cases starts <;> rfl

theorem accept_closed (c : Channel) : c.accept.1.closed = c.closed := by
  rw [accept]
  split
  · split
    · rfl
    · split <;> rfl
  · rfl

theorem poll_closed (c : Channel) : c.poll.1.closed = c.closed := by
  rw [poll]
  split
  · split
    · rfl
    · rfl
    · split <;> rfl
  · rfl
  · rfl

section Resuming

variable (c : Channel)

theorem resume_closed (phase : Phase) : (c.resume phase).1.closed = c.closed := by
  cases phase with
  | content last => cases slot : c.slot <;> simp [resume, slot]
  | ending => cases slot : c.slot <;> simp [resume, slot]
  | done result => rfl

theorem resume_full (item : PayloadItem) (phase : Phase) (full : c.slot = .full item) :
    c.resume phase = (c, phase) := by
  cases phase <;> simp [resume, full]

theorem resume_content (taken : c.slot = .taken) :
    c.resume (.content false) = ({ c with slot := .empty }, .done (.ok ())) := by
  simp [resume, taken, sendEnd]

theorem resume_last (taken : c.slot = .taken) (present : c.reader ≠ .gone) :
    c.resume (.content true) = ({ c with slot := .full .eof, ended := true }, .ending) := by
  simp [resume, taken, sendEnd, send, present]

theorem resume_last_gone (taken : c.slot = .taken) (gone : c.reader = .gone) :
    c.resume (.content true) = ({ c with slot := .empty, ended := true }, .done (.error receiverDropped)) := by
  simp [resume, taken, sendEnd, send, gone]

theorem resume_ending (taken : c.slot = .taken) : c.resume .ending = ({ c with slot := .empty }, .done (.ok ())) := by
  simp [resume, taken]

theorem resume_lost (last : Bool) (lost : c.slot = .lost) :
    c.resume (.content last) = ({ c with slot := .empty }, .done (.error bodyDropped)) := by
  simp [resume, lost]

theorem resume_cut (lost : c.slot = .lost) :
    c.resume .ending = ({ c with slot := .empty }, .done (.error bodyDropped)) := by
  simp [resume, lost]

end Resuming

end Channel

open Channel

namespace Transfer

theorem returned_came (returned : List (Writing × Sent)) (n : Nat) (w : Writing) (result : Sent)
    (came : ∀ (i : Nat) (v : Writing), returned[i]? = some (v, .ok ()) → v.tidy.2 ≠ none → i < n)
    (fine : result = .ok () → w.tidy.2 ≠ none → returned.length < n) (i : Nat) (v : Writing)
    (present : (returned ++ [(w, result)])[i]? = some (v, .ok ())) (some_content : v.tidy.2 ≠ none) : i < n := by
  rcases Nat.lt_trichotomy i returned.length with below | rfl | above
  · rw [List.getElem?_append_left below] at present
    exact came i v present some_content
  · obtain ⟨rfl, rfl⟩ : w = v ∧ result = .ok () := by simpa using present
    exact fine rfl some_content
  · rw [List.getElem?_eq_none (by rw [List.length_append]; exact above)] at present
    cases present

theorem resume_waits (x : Transfer) (w : Writing) (phase : Phase) (current : x.current = some (w, phase))
    (waits : x.channel.resume phase = (x.channel, phase)) : x.resume w phase = x := by
  rw [resume, waits, ← current]

theorem proceed_closed (x : Transfer) : x.proceed.channel.closed = x.channel.closed := by
  rw [proceed]
  split
  · rfl
  · split
    · rfl
    · exact x.channel.resume_closed _
    · exact start_closed x.channel _
    · rfl

theorem move_closed (x : Transfer) (m : Move) :
    (x.move m).channel.closed = true ↔ x.channel.closed = true ∨ m = .close := by
  cases m with
  | edit head => rw [move]; split <;> simp
  | write last content => rw [move]; split <;> simp [enter, start_closed x.channel (last, content)]
  | body frames => rw [move]; split <;> simp
  | proceed => simp [move, proceed_closed]
  | close => simp [move, close]
  | accept => simp [move, accept_closed]
  | poll => simp [move, poll_closed]
  | leave => simp [move, drop]

theorem play_closed (x : Transfer) (moves : List Move) :
    (x.play moves).channel.closed = true ↔ x.channel.closed = true ∨ .close ∈ moves := by
  induction moves generalizing x with
  | nil => simp [play]
  | cons m rest ih =>
      rw [play, List.foldl_cons, ← play, ih, move_closed, List.mem_cons, or_assoc, eq_comm (a := m)]

section Entering

variable (x : Transfer) (n : Nat) (frames : List Bytes) (ending : Option Sent) (sound : x.Sound n frames ending)
variable (open_ : x.channel.closed = false)

include sound open_

theorem unbroken (e : SendError) : ending ≠ some (.error e) := by
  intro broken
  exact absurd ((sound.broken e broken).1.symm.trans open_) nofun

theorem account_entered : Account (x.opening <|> some x.channel.head) x.told frames ending := by
  have account := sound.account
  cases opening : x.opening with
  | some head => rwa [opening] at account
  | none =>
      rw [opening] at account
      generalize x.told = told at account
      cases account with
      | silent => exact .silent
      | refused unopened => exact (unbroken x n _ _ sound open_ _ rfl).elim
      | reading head frames opened => cases opened
      | ended head frames more opened => cases opened
      | failed head frames more opened => cases opened

theorem heard_entered (y : Transfer) (written : y.writings ≠ []) (told : y.told = x.told)
    (opening : y.opening = (x.opening <|> some x.channel.head)) (announced : y.channel.announced = true)
    (reader : y.channel.reader = x.channel.reader)
    (offered : x.channel.reader = .waiting → y.channel.offered = (x.opening <|> some x.channel.head))
    (ended : x.channel.ended = true → y.channel.ended = true)
    (final : y.channel.ended = true → x.channel.reader ≠ .gone → ending = none → y.channel.slot = .full .eof) :
    y.Heard frames ending where
  account := by rw [opening, told]; exact account_entered x n frames ending sound open_
  opened := by
    rw [opening]
    cases x.opening <;> simp [written]
  announced := by
    rw [announced, opening]
    cases x.opening <;> rfl
  waiting waits := by
    rw [reader] at waits
    exact ⟨told ▸ (sound.waiting waits).1, opening ▸ offered waits⟩
  reading size ended reading := by
    obtain ⟨some_told, -, past⟩ := sound.reading size ended (reader ▸ reading)
    rw [told, opening]
    exact ⟨some_told, by cases x.opening <;> simp, past⟩
  clean past := ended (sound.clean past)
  final := reader ▸ final
  broken e broken := (unbroken x n frames ending sound open_ e broken).elim

omit open_ in
theorem announcing_offered (waits : x.channel.reader = .waiting) :
    x.channel.announcing.offered = (x.opening <|> some x.channel.head) := by
  have offered := (sound.waiting waits).2
  have announced := sound.announced
  cases opening : x.opening with
  | none =>
      rw [opening] at announced
      rw [announcing, announced]
      rfl
  | some head =>
      rw [opening] at announced offered
      rw [announcing, announced]
      exact offered

omit open_ in
theorem idle_closes (idle : x.current = none) (more : x.channel.ended = false) (present : x.channel.reader ≠ .gone)
    (w : Writing) (member : w ∈ x.writings) : w.1 = false := by
  refine Bool.eq_false_iff.mpr fun last => ?_
  obtain ⟨v, current⟩ := sound.closing more present ⟨w, member, last⟩
  exact absurd (idle.symm.trans current) nofun

omit open_ in
theorem idle_empty (idle : x.current = none) : x.channel.slot = .empty := by
  have standing := sound.standing
  rw [idle] at standing
  cases standing with
  | idle empty => exact empty

theorem entered_sound (w : Writing) (c : Channel) (phase : Phase) (n' : Nat) (idle : x.current = none)
    (more : n ≤ n') (bound : n' ≤ x.writings.length + 1)
    (standing : Standing c n' (x.writings.length + 1) (some (w, phase)))
    (level : c.ended = false → c.reader ≠ .gone → (∀ data, c.slot ≠ .full (.chunk data)) →
      n' = x.writings.length + 1)
    (last : c.ended = true → x.channel.ended = true ∨ w.1 = true)
    (closing : c.ended = false → c.reader ≠ .gone → x.channel.ended = false ∧ (w.1 = true → phase = .content true))
    (announced : c.announced = true) (reader : c.reader = x.channel.reader)
    (offered : x.channel.reader = .waiting → c.offered = (x.opening <|> some x.channel.head))
    (ended : x.channel.ended = true → c.ended = true)
    (final : c.ended = true → x.channel.reader ≠ .gone → ending = none → c.slot = .full .eof)
    (pulled : contents (x.writings.take n) = contents ((x.writings ++ [w]).take n')) :
    Sound { x with channel := c, opening := x.opening <|> some x.channel.head, current := some (w, phase) }
      n' frames ending := by
  have alone : x.writings = x.returned.map (·.1) := by simp [writings, idle]
  have grown : writings { x with
      channel := c, opening := x.opening <|> some x.channel.head, current := some (w, phase) } = x.writings ++ [w] := by
    rw [alone]
    rfl
  have length : (x.writings ++ [w]).length = x.writings.length + 1 := by simp
  refine ⟨⟨?_, ?_, ?_, ?_, ?_, ?_⟩, heard_entered x n frames ending sound open_ _ ?_ rfl rfl announced
    reader offered ended final, ?_⟩
  · exact fun i v present some_content => Nat.lt_of_lt_of_le (sound.came i v present some_content) more
  · rw [grown, length]
    exact standing
  · rw [grown, length]
    exact level
  · rw [grown, length]
    exact bound
  · rw [grown]
    intro past
    rcases last past with before | now
    · obtain ⟨v, member, closes⟩ := sound.last before
      exact ⟨v, List.mem_append_left _ member, closes⟩
    · exact ⟨w, by simp, now⟩
  · rw [grown]
    rintro unended present ⟨v, member, closes⟩
    obtain ⟨before, phase_closes⟩ := closing unended present
    rcases List.mem_append.mp member with old | new
    · have none_closes := idle_closes x n frames ending sound idle before (reader ▸ present) v old
      cases none_closes.symm.trans closes
    · obtain rfl := List.mem_singleton.mp new
      exact ⟨v, by rw [phase_closes closes]⟩
  · rw [grown]
    simp
  · rw [grown, ← pulled]
    exact sound.pulled

theorem enter_sound (w : Writing) (idle : x.current = none) : ∃ n', (x.enter w).Sound n' frames ending := by
  have starts := start_starts x.channel w
  have empty := idle_empty x n frames ending sound idle
  have offered := announcing_offered x n frames ending sound
  have entered := entered_sound x n frames ending sound open_ w
  have level (more : x.channel.ended = false) (present : x.channel.reader ≠ .gone) : n = x.writings.length :=
    sound.level more present fun data => by simp [empty]
  have keeps : contents (x.writings.take n) = contents ((x.writings ++ [w]).take n) := by
    rw [List.take_append_of_le_length sound.bound]
  have whole (all : n = x.writings.length) (content : w.tidy.2 = none) :
      contents (x.writings.take n) = contents ((x.writings ++ [w]).take (n + 1)) := by
    rw [all, List.take_length, List.take_of_length_le (by simp)]
    simp [contents, content]
  unfold enter
  generalize x.channel.start w.1 w.2 = p at starts
  cases starts with
  | late closing result fine =>
      have begun : x.opening ≠ none := by
        obtain ⟨v, member, -⟩ := sound.last closing
        exact fun unopened => List.ne_nil_of_mem member (sound.opened.mp unopened)
      obtain ⟨head, opening⟩ := Option.ne_none_iff_exists'.mp begun
      refine ⟨n, entered x.channel _ n idle (Nat.le_refl n) (Nat.le_succ_of_le sound.bound) ?_ ?_ .inl ?_ ?_ rfl ?_ id
        sound.final keeps⟩
      · exact .done w result empty fun ok some_content => (some_content (fine ok)).elim
      · exact fun more => by cases closing.symm.trans more
      · exact fun more => by cases closing.symm.trans more
      · rw [sound.announced, opening]
        rfl
      · intro waits
        rw [(sound.waiting waits).2, opening]
        rfl
  | deserted more gone ended closing result fine =>
      refine ⟨n, entered _ _ n idle (Nat.le_refl n) (Nat.le_succ_of_le sound.bound) ?_ ?_
        (fun past => .inr (closing past)) ?_ rfl
        rfl ?_ ?_ ?_ keeps⟩
      · exact .done w result empty fun ok some_content => (some_content (fine ok)).elim
      · exact fun _ present => (present gone).elim
      · exact fun _ present => (present gone).elim
      · exact fun waits => by cases gone.symm.trans waits
      · exact fun past => by cases more.symm.trans past
      · exact fun _ present => (present gone).elim
  | nothing more present content last =>
      have all := level more present
      refine ⟨n + 1, entered x.channel.announcing _ (n + 1) idle (Nat.le_succ n)
        (Nat.succ_le_succ sound.bound) ?_ ?_ .inl ?_ rfl rfl
        offered id sound.final (whole all content)⟩
      · exact .done w (.ok ()) empty fun _ some_content => (some_content content).elim
      · exact fun _ _ _ => congrArg (· + 1) all
      · exact fun _ _ => ⟨more, fun closes => by cases last.symm.trans closes⟩
  | content more present data content =>
      have all := level more present
      refine ⟨n, entered { x.channel.announcing with slot := .full (.chunk data) } _ n idle (Nat.le_refl n)
        (Nat.le_succ_of_le sound.bound) ?_ ?_ .inl ?_ rfl rfl offered id ?_ keeps⟩
      · exact .offered w data content more rfl present (congrArg (· + 1) all)
      · exact fun _ _ other => (other data rfl).elim
      · exact fun _ _ => ⟨more, fun closes => by rw [closes]⟩
      · exact fun past => by cases more.symm.trans past
  | ending more present content last =>
      have all := level more present
      refine ⟨n + 1, entered { x.channel.announcing with ended := true, slot := .full .eof } _
        (n + 1) idle (Nat.le_succ n)
        (Nat.succ_le_succ sound.bound) ?_ (by simp) (fun _ => .inr last) (by simp) rfl rfl offered
          (fun _ => rfl) (fun _ _ _ => rfl)
        (whole all content)⟩
      exact .ending w rfl rfl present (congrArg (· + 1) all)

theorem settle_sound (w : Writing) (result : Sent) (current : x.current = some (w, .done result)) :
    (x.settle w result).Sound n frames ending := by
  have standing := sound.standing
  rw [current] at standing
  cases standing with
  | done w result empty all =>
      have same : (x.settle w result).writings = x.writings := by simp [writings, settle, current]
      have count : x.writings.length = x.returned.length + 1 := by simp [writings, current]
      refine ⟨⟨?_, .idle empty, same ▸ sound.level, same ▸ sound.bound, same ▸ sound.last, ?_⟩, ?_,
        same ▸ sound.pulled⟩
      · refine returned_came x.returned n w result sound.came fun fine some_content => ?_
        have := all fine some_content
        omega
      · rw [same]
        intro more present last
        obtain ⟨v, going⟩ := sound.closing more present last
        cases current.symm.trans going
      · exact { sound with
          opened := same ▸ sound.opened
          broken := fun e broken => (unbroken x n frames ending sound open_ e broken).elim }

theorem resumed_sound (w : Writing) (c : Channel) (phase phase' : Phase) (current : x.current = some (w, phase))
    (standing : Standing c n x.writings.length (some (w, phase')))
    (level : c.ended = false → c.reader ≠ .gone → (∀ data, c.slot ≠ .full (.chunk data)) → n = x.writings.length)
    (last : c.ended = true → x.channel.ended = true ∨ w.1 = true)
    (closing : c.ended = false → c.reader ≠ .gone → x.channel.ended = false ∧ phase = .content w.1 ∧ w.1 = false)
    (announced : c.announced = x.channel.announced) (reader : c.reader = x.channel.reader)
    (offered : c.offered = x.channel.offered) (ended : x.channel.ended = true → c.ended = true)
    (final : c.ended = true → x.channel.reader ≠ .gone → ending = none → c.slot = .full .eof) :
    Sound { x with channel := c, current := some (w, phase') } n frames ending := by
  have same : writings { x with channel := c, current := some (w, phase') } = x.writings := by simp [writings, current]
  refine ⟨⟨sound.came, same ▸ standing, same ▸ level, same ▸ sound.bound, ?_, ?_⟩, ?_, same ▸ sound.pulled⟩
  · rw [same]
    intro past
    rcases last past with before | now
    · exact sound.last before
    · exact ⟨w, by simp [writings, current], now⟩
  · rw [same]
    intro unended present closes
    obtain ⟨before, content, more⟩ := closing unended present
    obtain ⟨v, going⟩ := sound.closing before (reader ▸ present) closes
    rw [current, content] at going
    simp [more] at going
  · exact { sound with
      opened := same ▸ sound.opened
      announced := announced.trans sound.announced
      waiting := by rw [reader, offered]; exact sound.waiting
      reading := by rw [reader]; exact sound.reading
      clean := fun past => ended (sound.clean past)
      final := reader ▸ final
      broken := fun e broken => (unbroken x n frames ending sound open_ e broken).elim }

theorem resume_sound (w : Writing) (phase : Phase) (current : x.current = some (w, phase)) :
    (x.resume w phase).Sound n frames ending := by
  have resumed := resumed_sound x n frames ending sound open_ w
  have same (waits : x.channel.resume phase = (x.channel, phase)) : (x.resume w phase).Sound n frames ending := by
    rw [resume_waits x w phase current waits]
    exact sound
  have standing := sound.standing
  rw [current] at standing
  cases standing with
  | offered w data content unended slot present all => exact same (x.channel.resume_full _ _ slot)
  | ending w closing slot present all => exact same (x.channel.resume_full _ _ slot)
  | done w result empty all => exact same rfl
  | taken w unended slot all =>
      cases last : w.1 with
      | false =>
          rw [resume, resume_content _ slot]
          refine resumed { x.channel with slot := .empty } (.content w.1) _ current (.done w _ rfl fun _ _ => all)
            (fun _ _ _ => all) .inl (fun _ _ => ⟨unended, rfl, last⟩) rfl rfl rfl id ?_
          exact fun past => absurd (unended.symm.trans past) nofun
      | true =>
          by_cases gone : x.channel.reader = .gone
          · rw [resume, resume_last_gone _ slot gone]
            exact resumed { x.channel with slot := .empty, ended := true } (.content w.1) _ current
              (.done w _ rfl nofun) nofun
              (fun _ => .inr last) nofun rfl rfl rfl (fun _ => rfl) fun _ present => (present gone).elim
          · rw [resume, resume_last _ slot gone]
            exact resumed { x.channel with slot := .full .eof, ended := true } (.content w.1) _ current
              (.ending w rfl rfl gone all) nofun (fun _ => .inr last) nofun rfl rfl rfl (fun _ => rfl) fun _ _ _ => rfl
  | lost w unended slot gone =>
      rw [resume, resume_lost _ _ slot]
      refine resumed { x.channel with slot := .empty } _ _ current (.done w _ rfl nofun) ?_ .inl ?_ rfl rfl rfl id ?_
      · exact fun _ present => (present gone).elim
      · exact fun _ present => (present gone).elim
      · exact fun _ present => (present gone).elim
  | ended w closing slot all =>
      rw [resume, resume_ending _ slot]
      refine resumed { x.channel with slot := .empty } _ _ current
        (.done w _ rfl fun _ _ => all) (fun _ _ _ => all) .inl ?_ rfl
        rfl rfl id ?_
      · exact fun more => absurd (closing.symm.trans more) nofun
      · intro _ present unended
        exact absurd (slot.symm.trans (sound.final closing present unended)) nofun
  | cut w closing slot gone =>
      rw [resume, resume_cut _ slot]
      refine resumed { x.channel with slot := .empty } _ _ current (.done w _ rfl nofun) ?_ .inl ?_ rfl rfl rfl id ?_
      · exact fun _ present => (present gone).elim
      · exact fun _ present => (present gone).elim
      · exact fun _ present => (present gone).elim

end Entering

section Moving

variable (x : Transfer) (n : Nat) (frames : List Bytes) (ending : Option Sent) (sound : x.Sound n frames ending)

include sound

theorem proceed_sound : ∃ n', x.proceed.Sound n' frames ending := by
  unfold proceed
  by_cases closed : x.channel.closed = true
  · rw [if_pos closed]
    exact ⟨n, sound⟩
  · rw [if_neg closed]
    have open_ : x.channel.closed = false := by simpa using closed
    cases current : x.current with
    | some c =>
        obtain ⟨w, phase⟩ := c
        cases phase with
        | done result => exact ⟨n, settle_sound x n frames ending sound open_ w result current⟩
        | _ => exact ⟨n, resume_sound x n frames ending sound open_ w _ current⟩
    | none =>
        cases due : x.due with
        | nil => exact ⟨n, sound⟩
        | cons w rest => exact enter_sound { x with due := rest } n frames ending { sound with } open_ w current

theorem move_sound (m : Move) : ∃ n' frames' ending', (x.move m).Sound n' frames' ending' := by
  have idle_open (idle : x.isIdle = true) : x.current = none ∧ x.channel.closed = false := by
    have parts := idle
    simp only [isIdle, Bool.and_eq_true, Option.isNone_iff_eq_none, Bool.not_eq_true'] at parts
    exact ⟨parts.1.1, parts.2⟩
  cases m with
  | edit head =>
      rw [move]
      split
      · exact ⟨n, frames, ending,
          { sound with standing := standing_congr x.channel _ n _ _ rfl rfl Iff.rfl sound.standing }⟩
      · exact ⟨n, frames, ending, sound⟩
  | write last content =>
      rw [move]
      split
      · rename_i idle
        obtain ⟨n', next⟩ := enter_sound x n frames ending sound (idle_open idle).2 (last, content) (idle_open idle).1
        exact ⟨n', frames, ending, next⟩
      · exact ⟨n, frames, ending, sound⟩
  | body sent =>
      rw [move]
      split
      · exact ⟨n, frames, ending, { sound with }⟩
      · exact ⟨n, frames, ending, sound⟩
  | proceed =>
      obtain ⟨n', next⟩ := proceed_sound x n frames ending sound
      exact ⟨n', frames, ending, next⟩
  | close =>
      exact ⟨n, frames, ending, { sound with
        standing := standing_congr x.channel _ n _ _ rfl rfl Iff.rfl sound.standing
        broken := fun e broken => ⟨rfl, (sound.broken e broken).2⟩ }⟩
  | accept =>
      obtain ⟨ending', next⟩ := accept_sound x n frames ending sound
      exact ⟨n, frames, ending', next⟩
  | poll => exact poll_sound x n frames ending sound
  | leave => exact ⟨n, frames, ending, leave_sound x n frames ending sound⟩

theorem play_sound (moves : List Move) : ∃ n' frames' ending', (x.play moves).Sound n' frames' ending' := by
  induction moves generalizing x n frames ending with
  | nil => exact ⟨n, frames, ending, sound⟩
  | cons m rest ih =>
      obtain ⟨n', frames', ending', next⟩ := move_sound x n frames ending sound m
      exact ih (x.move m) n' frames' ending' next

end Moving

end Transfer

end Gateway
