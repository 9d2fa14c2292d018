import Gateway.Proofs.Sink.Transfer

set_option autoImplicit false

namespace Gateway

open Channel

namespace Transfer

section Reading

variable (x : Transfer) (n : Nat) (frames : List Bytes) (ending : Option Sent) (sound : x.Sound n frames ending)

include sound

theorem unopened_idle (unopened : x.opening = none) : x.writings = [] ∧ x.current = none := by
  have unwritten := sound.opened.mp unopened
  refine ⟨unwritten, ?_⟩
  cases current : x.current with
  | none => rfl
  | some c => simp [writings, current] at unwritten

theorem accept_sound : ∃ ending', (x.move .accept).Sound n frames ending' := by
  have same (pending : x.channel.accept = (x.channel, .pending)) : (x.move .accept).Sound n frames ending := by
    rw [show x.move .accept = x by simp [move, pending, Opening.told]]
    exact sound
  cases reader : x.channel.reader with
  | reading size ended => exact ⟨ending, same (by simp [accept, reader])⟩
  | gone => exact ⟨ending, same (by simp [accept, reader])⟩
  | waiting =>
      have present : x.channel.reader ≠ .gone := by simp [reader]
      have account := sound.account
      obtain ⟨untold, offered⟩ := sound.waiting reader
      rw [untold] at account
      cases opening : x.opening with
      | some head =>
          have accepts : x.channel.accept =
              ({ x.channel with offered := none, reader := .reading (.ofHeaders head.headers) false },
                .response head) := by
            simp [accept, reader, offered, opening]
          have told : x.told ++ (Opening.response head).told = [.head head] := by simp [untold, Opening.told]
          refine ⟨none, ?_⟩
          cases account
          simp only [move, accepts, told]
          exact { sound with
            account := .reading head [] opening
            standing := standing_congr x.channel _ n _ _ rfl rfl (by simp [reader]) sound.standing
            level := fun open_ _ => sound.level open_ present
            waiting := nofun
            reading := by rintro size ended ⟨⟩; exact ⟨nofun, by simp [opening], rfl⟩
            final := fun closing _ => sound.final closing present
            closing := fun open_ _ => sound.closing open_ present }
      | none =>
          cases closed : x.channel.closed with
          | false => exact ⟨ending, same (by simp [accept, reader, offered, opening, closed])⟩
          | true =>
              have accepts : x.channel.accept = ({ x.channel with reader := .gone }, .refused droppedBeforeCommit) := by
                simp [accept, reader, offered, opening, closed]
              have told : x.told ++ (Opening.refused droppedBeforeCommit).told = [.refused droppedBeforeCommit] := by
                simp [untold, Opening.told]
              obtain ⟨unwritten, idle⟩ := unopened_idle x n frames ending sound opening
              have standing := sound.standing
              rw [idle] at standing
              refine ⟨some (.error droppedBeforeCommit), ?_⟩
              cases account
              cases standing with
              | idle empty =>
                  simp only [move, accepts, told]
                  exact { sound with
                    account := .refused opening
                    standing := by rw [idle]; exact .idle empty
                    level := fun _ gone => (gone rfl).elim
                    waiting := nofun
                    reading := nofun
                    clean := nofun
                    broken := fun e _ => ⟨closed, congrArg contents unwritten.symm, fun ⟨w, member, _⟩ =>
                      (List.ne_nil_of_mem member unwritten).elim⟩
                    final := fun _ gone => (gone rfl).elim
                    closing := fun _ gone => (gone rfl).elim }

omit sound in
theorem offered_contents (w : Writing) (phase : Phase) (data : Bytes) (current : x.current = some (w, phase))
    (content : w.tidy.2 = some data) (all : n + 1 = x.writings.length) :
    contents (x.writings.take (n + 1)) = contents (x.writings.take n) ++ [data] := by
  have length : n = x.returned.length := by simpa [writings, current] using all
  have earlier : x.writings.take n = x.returned.map (·.1) := by simp [writings, current, length]
  rw [earlier, List.take_of_length_le (Nat.le_of_eq all.symm)]
  simp [writings, current, contents, content]

theorem poll_chunk (size : PayloadSize) (data : Bytes) (reader : x.channel.reader = .reading size false)
    (slot : x.channel.slot = .full (.chunk data)) : (x.move .poll).Sound (n + 1) (frames ++ [data]) ending := by
  obtain ⟨told, opened, unended⟩ := sound.reading size false reader
  obtain rfl : ending = none := by simpa using unended
  obtain ⟨head, opening, heard⟩ := sound.account.opened _ _ _ told
  have polls : x.channel.poll = ({ x.channel with slot := .taken }, .frame data) := by simp [poll, reader, slot]
  have standing := sound.standing
  generalize current : x.current = c at standing
  cases standing with
  | offered w _ content open_ full present all =>
      obtain rfl := by simpa [slot] using full
      have standing : Standing { x.channel with slot := .taken } (n + 1) x.writings.length x.current := by
        rw [current]
        exact .taken w open_ rfl all
      simp only [move, polls]
      exact { sound with
        account := by simpa [heard, Pull.told] using Account.reading head (frames ++ [data]) opening
        pulled := by rw [sound.pulled]; exact (offered_contents x n w _ data current content all).symm
        came := fun i w present some => Nat.lt_succ_of_lt (sound.came i w present some)
        standing
        level := fun _ _ _ => all
        bound := Nat.le_of_eq all
        waiting := fun waiting => absurd (reader.symm.trans waiting) nofun
        reading := fun size ended reading => ⟨by simp [told], opened, (sound.reading size ended reading).2.2⟩
        broken := nofun
        final := fun closing _ => absurd (open_.symm.trans closing) nofun }
  | idle other => simp [slot] at other
  | taken _ _ other | lost _ _ other | ending _ _ other | ended _ _ other | cut _ _ other | done _ _ other =>
      simp [slot] at other

theorem poll_eof (size : PayloadSize) (reader : x.channel.reader = .reading size false)
    (slot : x.channel.slot = .full .eof) : (x.move .poll).Sound n frames (some (.ok ())) := by
  obtain ⟨told, opened, unended⟩ := sound.reading size false reader
  obtain rfl : ending = none := by simpa using unended
  obtain ⟨head, opening, heard⟩ := sound.account.opened _ _ _ told
  have polls : x.channel.poll = ({ x.channel with slot := .taken, reader := .reading size true }, .ended) := by
    simp [poll, reader, slot]
  have standing := sound.standing
  generalize current : x.current = c at standing
  cases standing with
  | ending w closing full present all =>
      have standing : Standing { x.channel with slot := .taken, reader := .reading size true } n x.writings.length
          x.current := by
        rw [current]
        exact .ended w closing rfl all
      simp only [move, polls]
      exact { sound with
        account := by simpa [heard, Pull.told] using Account.ended head frames 0 opening
        standing
        level := fun open_ => absurd (closing.symm.trans open_) nofun
        waiting := nofun
        reading := by rintro size ended ⟨⟩; exact ⟨by simp [told], opened, rfl⟩
        clean := fun _ => closing
        broken := nofun
        final := nofun
        closing := fun open_ => absurd (closing.symm.trans open_) nofun }
  | idle other => simp [slot] at other
  | offered _ _ _ _ other | taken _ _ other | lost _ _ other | ended _ _ other | cut _ _ other | done _ _ other =>
      simp [slot] at other

theorem poll_dropped (size : PayloadSize) (reader : x.channel.reader = .reading size false)
    (slot : ∀ item, x.channel.slot ≠ .full item) (closed : x.channel.closed = true) :
    (x.move .poll).Sound n frames (some (.error droppedBeforeEnd)) := by
  obtain ⟨told, opened, unended⟩ := sound.reading size false reader
  obtain rfl : ending = none := by simpa using unended
  obtain ⟨head, opening, heard⟩ := sound.account.opened _ _ _ told
  have present : x.channel.reader ≠ .gone := by simp [reader]
  have polls : x.channel.poll = ({ x.channel with reader := .reading size true }, .failed droppedBeforeEnd) := by
    cases here : x.channel.slot with
    | full item => exact (slot item here).elim
    | _ => simp [poll, reader, here, closed]
  have open_ : x.channel.ended = false :=
    Bool.eq_false_iff.mpr fun closing => slot .eof (sound.final closing present rfl)
  have all : frames = contents x.writings := by
    rw [sound.pulled, sound.level open_ present fun data => slot (.chunk data), List.take_length]
  simp only [move, polls]
  exact { sound with
    account := by simpa [heard, Pull.told] using Account.failed head frames 0 opening
    standing := standing_congr x.channel _ n _ _ rfl rfl (by simp [reader]) sound.standing
    level := fun _ _ => sound.level open_ present
    waiting := nofun
    reading := by rintro size ended ⟨⟩; exact ⟨by simp [told], opened, rfl⟩
    clean := nofun
    broken := fun e _ => ⟨closed, all, sound.closing open_ present⟩
    final := fun closing => absurd (open_.symm.trans closing) nofun
    closing := fun _ _ => sound.closing open_ present }

theorem poll_sound : ∃ n' frames' ending', (x.move .poll).Sound n' frames' ending' := by
  have same (pending : x.channel.poll = (x.channel, .pending)) : (x.move .poll).Sound n frames ending := by
    rw [show x.move .poll = x by simp [move, pending, Pull.told]]
    exact sound
  cases reader : x.channel.reader with
  | waiting => exact ⟨_, _, _, same (by simp [poll, reader])⟩
  | gone => exact ⟨_, _, _, same (by simp [poll, reader])⟩
  | reading size ended =>
      cases ended with
      | true =>
          obtain ⟨told, opened, past⟩ := sound.reading size true reader
          have polls : x.channel.poll = (x.channel, .ended) := by simp [poll, reader]
          refine ⟨n, frames, ending, ?_⟩
          simp only [move, polls]
          exact { sound with
            account := sound.account.more _ _ _ _ (by simpa [Option.isSome_iff_ne_none] using past) opened
            waiting := fun waiting => absurd (reader.symm.trans waiting) nofun
            reading := fun size ended reading => ⟨by simp [told], opened, (sound.reading size ended reading).2.2⟩ }
      | false =>
          by_cases full : ∃ item, x.channel.slot = .full item
          · obtain ⟨item, slot⟩ := full
            cases item with
            | chunk data => exact ⟨_, _, _, poll_chunk x n frames ending sound size data reader slot⟩
            | eof => exact ⟨_, _, _, poll_eof x n frames ending sound size reader slot⟩
          · have empty (item : PayloadItem) (slot : x.channel.slot = .full item) : False := full ⟨item, slot⟩
            cases closed : x.channel.closed with
            | true => exact ⟨_, _, _, poll_dropped x n frames ending sound size reader empty closed⟩
            | false =>
                refine ⟨_, _, _, same ?_⟩
                cases slot : x.channel.slot with
                | full item => exact (empty item slot).elim
                | _ => simp [poll, reader, slot, closed]

theorem leave_sound : (x.move .leave).Sound n frames ending := by
  have standing : Standing x.channel.drop n x.writings.length x.current := by
    have here := sound.standing
    generalize x.current = current at here
    cases here with
    | idle empty => exact .idle (by simp [drop, empty])
    | offered w data content open_ slot present all => exact .lost w open_ (by simp [drop, slot]) rfl
    | taken w open_ slot all => exact .taken w open_ (by simp [drop, slot]) all
    | lost w open_ slot gone => exact .lost w open_ (by simp [drop, slot]) rfl
    | ending w closing slot present all => exact .cut w closing (by simp [drop, slot]) rfl
    | ended w closing slot all => exact .ended w closing (by simp [drop, slot]) all
    | cut w closing slot gone => exact .cut w closing (by simp [drop, slot]) rfl
    | done w result empty all => exact .done w result (by simp [drop, empty]) all
  exact { sound with
    standing
    level := fun _ gone => (gone rfl).elim
    waiting := nofun
    reading := nofun
    final := fun _ gone => (gone rfl).elim
    closing := fun _ gone => (gone rfl).elim }

end Reading

end Transfer

end Gateway
