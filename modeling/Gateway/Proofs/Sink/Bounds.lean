import Gateway.Proofs.Sink.Arrival

set_option autoImplicit false

namespace Gateway

def SizeHint.Covers (h : SizeHint) (n : Nat) : Prop := h.lower ≤ n ∧ ∀ upper, h.upper = some upper → n ≤ upper

def Head.Declares (h : Head) (n : Nat) : Prop :=
  ∃ value text, h.headers.get? .contentLength = some value ∧ value.text? = some text ∧
    Numeral.read? (UInt64.size - 1) (Text.trim text) = some n

theorem exact_covers (n m : Nat) : (SizeHint.exact n).Covers m ↔ n = m := by
  constructor
  · rintro ⟨lower, upper⟩
    exact Nat.le_antisymm lower (upper n rfl)
  · rintro rfl
    exact ⟨Nat.le_refl n, fun upper same => Nat.le_of_eq (Option.some.inj same)⟩

theorem declared_hint (h : Head) (n : Nat) (declared : h.Declares n) :
    (PayloadSize.ofHeaders h.headers).hint = .exact n := by
  obtain ⟨value, text, present, readable, read⟩ := declared
  rw [PayloadSize.ofHeaders, present, Option.bind_some, readable, Option.bind_some, read]
  cases n <;> rfl

namespace Channel

theorem start_reader (c : Channel) (w : Writing) : (c.start w.1 w.2).1.reader = c.reader := by
  have starts := start_starts c w
  generalize c.start w.1 w.2 = p at starts
  cases starts <;> rfl

theorem send_end_reader (c : Channel) (last : Bool) : (c.sendEnd last).1.reader = c.reader := by
  unfold sendEnd send
  split
  · split <;> rfl
  · rfl

theorem resume_reader (c : Channel) (phase : Phase) : (c.resume phase).1.reader = c.reader := by
  cases phase with
  | content last =>
      rw [resume]
      split
      · exact send_end_reader _ last
      · rfl
      · rfl
  | ending =>
      rw [resume]
      split <;> rfl
  | done result => rfl

end Channel

open Channel

namespace Transfer

-- The writes that make up the response, of which the first last one is the end.
def response : List Writing → List Writing
  | [] => []
  | w :: rest => if w.1 then [w] else w :: response rest

def Told.data? : Told → Option Bytes
  | .frame data => some data
  | _ => none

def frames (x : Transfer) : List Bytes := x.told.filterMap Told.data?

def body (x : Transfer) : List Bytes := contents (response x.writings)

theorem response_open (ws more : List Writing) (unended : ∀ w ∈ ws, w.1 = false) :
    response (ws ++ more) = ws ++ response more := by
  induction ws with
  | nil => rfl
  | cons w rest ih =>
      rw [List.forall_mem_cons] at unended
      rw [List.cons_append, response, if_neg (by simp [unended.1]), ih unended.2, List.cons_append]

theorem response_ended (ws more : List Writing) (last : ∃ w ∈ ws, w.1 = true) :
    response (ws ++ more) = response ws := by
  induction ws with
  | nil => simp at last
  | cons w rest ih =>
      rw [List.cons_append, response, response]
      cases closes : w.1 with
      | true => rfl
      | false =>
          have later : ∃ w ∈ rest, w.1 = true := by simpa [closes] using last
          rw [if_neg Bool.false_ne_true, if_neg Bool.false_ne_true, ih later]

theorem response_leads (ws more : List Writing) : response ws <+: response (ws ++ more) := by
  by_cases last : ∃ w ∈ ws, w.1 = true
  · exact ⟨[], (List.append_nil _).trans (response_ended ws more last).symm⟩
  · have unended (w : Writing) (member : w ∈ ws) : w.1 = false := by
      rw [← Bool.not_eq_true]
      exact fun closes => last ⟨w, member, closes⟩
    have whole : response ws = ws := by simpa [response] using response_open ws [] unended
    rw [whole, response_open ws more unended]
    exact List.prefix_append ws _

theorem account_frames (opening : Option Head) (told : List Told) (frames : List Bytes) (ending : Option Sent)
    (account : Account opening told frames ending) : told.filterMap Told.data? = frames := by
  have kept (frames : List Bytes) : (frames.map Told.frame).filterMap Told.data? = frames := by
    rw [List.filterMap_map]
    exact List.filterMap_some
  cases account with
  | silent => rfl
  | refused unopened => rfl
  | reading head frames opened => exact kept frames
  | ended head frames more opened =>
      have silent : (List.replicate more Told.ended).filterMap Told.data? = [] := List.filterMap_replicate_of_none rfl
      rw [List.filterMap_cons_none rfl, List.filterMap_append, kept, List.filterMap_cons_none rfl,
        silent, List.append_nil]
  | failed head frames more opened =>
      have silent : (List.replicate more Told.ended).filterMap Told.data? = [] := List.filterMap_replicate_of_none rfl
      rw [List.filterMap_cons_none rfl, List.filterMap_append, kept, List.filterMap_cons_none rfl,
        silent, List.append_nil]

structure Onward (x y : Transfer) : Prop where
  opening : ∀ head, x.opening = some head → y.opening = some head
  writings : ∃ more, y.writings = x.writings ++ more ∧ (x.channel.closed = true → more = [])
  returned : y.returned = x.returned ∨
    ∃ w result, x.current = some (w, .done result) ∧ y.returned = x.returned ++ [(w, result)]

section Onward

variable (x : Transfer)

theorem onward_same (y : Transfer) (opening : y.opening = x.opening) (current : y.current = x.current)
    (returned : y.returned = x.returned) : Onward x y where
  opening _ same := opening.trans same
  writings := ⟨[], by simp [writings, current, returned]⟩
  returned := .inl returned

theorem enter_onward (w : Writing) (idle : x.current = none) (unclosed : x.channel.closed = false) :
    Onward x (x.enter w) where
  opening head same := by
    rw [enter, same]
    rfl
  writings := ⟨[w], by simp [writings, enter, idle], by simp [unclosed]⟩
  returned := .inl rfl

theorem proceed_onward : Onward x x.proceed := by
  unfold proceed
  split
  · exact onward_same x x rfl rfl rfl
  · rename_i open_
    rw [Bool.not_eq_true] at open_
    cases current : x.current with
    | some c =>
        obtain ⟨w, phase⟩ := c
        cases phase with
        | done result =>
            exact ⟨fun _ => id, ⟨[], by simp [writings, settle, current]⟩, .inr ⟨w, result, current, rfl⟩⟩
        | _ => exact ⟨fun _ => id, ⟨[], by simp [writings, resume, current]⟩, .inl rfl⟩
    | none =>
        cases due : x.due with
        | nil => exact onward_same x x rfl rfl rfl
        | cons w rest => exact { enter_onward { x with due := rest } w current open_ with }

theorem move_onward (m : Move) : Onward x (x.move m) := by
  cases m with
  | write last content =>
      rw [move]
      split
      · rename_i idle
        simp only [isIdle, Bool.and_eq_true, Option.isNone_iff_eq_none, Bool.not_eq_true'] at idle
        exact x.enter_onward (last, content) idle.1.1 idle.2
      · exact onward_same x x rfl rfl rfl
  | proceed => exact x.proceed_onward
  | edit head =>
      rw [move]
      split <;> exact onward_same x _ rfl rfl rfl
  | body sent =>
      rw [move]
      split <;> exact onward_same x _ rfl rfl rfl
  | _ => exact onward_same x _ rfl rfl rfl

theorem writer_silent (m : Move) (writer : m ≠ .accept ∧ m ≠ .poll ∧ m ≠ .leave) :
    (x.move m).channel.reader = x.channel.reader ∧ (x.move m).told = x.told := by
  cases m with
  | write last content =>
      rw [move]
      split
      · exact ⟨start_reader x.channel (last, content), rfl⟩
      · exact ⟨rfl, rfl⟩
  | proceed =>
      rw [move, proceed]
      split
      · exact ⟨rfl, rfl⟩
      · split
        · exact ⟨rfl, rfl⟩
        · exact ⟨resume_reader x.channel _, rfl⟩
        · exact ⟨start_reader x.channel _, rfl⟩
        · exact ⟨rfl, rfl⟩
  | edit head =>
      rw [move]
      split <;> exact ⟨rfl, rfl⟩
  | body sent =>
      rw [move]
      split <;> exact ⟨rfl, rfl⟩
  | close => exact ⟨rfl, rfl⟩
  | accept => exact (writer.1 rfl).elim
  | poll => exact (writer.2.1 rfl).elim
  | leave => exact (writer.2.2 rfl).elim

end Onward

structure Measured (x : Transfer) : Prop where
  sized : ∀ size ended, x.channel.reader = .reading size ended →
    ∃ head, x.opening = some head ∧ size = .ofHeaders head.headers
  undone : x.channel.reader ≠ .gone → x.isOver = false → ∀ answer ∈ x.returned, answer.1.1 = false
  within : x.frames <+: x.body
  whole : x.isOver = true → x.frames = x.body

theorem new_measured (head : Head) : (new head).Measured where
  sized := nofun
  undone := nofun
  within := List.prefix_refl _
  whole := nofun

section Measuring

variable (x : Transfer) (n : Nat) (frames : List Bytes) (ending : Option Sent) (sound : x.Sound n frames ending)

theorem body_whole (measured : x.Measured) (present : x.channel.reader ≠ .gone) (ongoing : x.isOver = false) :
    x.body = contents x.writings := by
  have unended : ∀ w ∈ x.returned.map (·.1), w.1 = false := by
    rw [List.forall_mem_map]
    exact measured.undone present ongoing
  have alone : response (x.current.toList.map (·.1)) = x.current.toList.map (·.1) := by
    cases x.current with
    | none => rfl
    | some c => simp [response]
  rw [body, writings, response_open _ _ unended, alone]

include sound

theorem sound_frames : x.frames = frames := account_frames _ _ _ _ sound.account

theorem sound_over : x.isOver = ending.isSome := sound.account.told_end _ _ _ _

theorem frames_level (present : x.channel.reader ≠ .gone) (ongoing : ending = none)
    (unfilled : ∀ data, x.channel.slot ≠ .full (.chunk data)) : x.frames = contents x.writings := by
  have all : n = x.writings.length := by
    cases ended : x.channel.ended with
    | false => exact sound.level ended present unfilled
    | true =>
        have slot := sound.final ended present ongoing
        have standing := sound.standing
        generalize x.current = c at standing
        cases standing with
        | ending w closing full here all => exact all
        | idle other => simp [slot] at other
        | offered _ _ _ _ other | taken _ _ other | lost _ _ other | ended _ _ other | cut _ _ other | done _ _ other =>
            simp [slot] at other
  rw [sound_frames x n frames ending sound, sound.pulled, all, List.take_length]

theorem frames_pulled (data : Bytes) (filled : x.channel.slot = .full (.chunk data)) :
    x.frames ++ [data] = contents x.writings := by
  have standing := sound.standing
  generalize current : x.current = c at standing
  cases standing with
  | offered w _ content open_ full _ all =>
      obtain rfl := by simpa [filled] using full
      have grown := offered_contents x n w _ data current content all
      rw [all, List.take_length, ← sound.pulled, ← sound_frames x n frames ending sound] at grown
      exact grown.symm
  | idle other => simp [filled] at other
  | taken _ _ other | lost _ _ other | ending _ _ other | ended _ _ other | cut _ _ other | done _ _ other =>
      simp [filled] at other

theorem over_body (m : Move) (past : x.isOver = true) : (x.move m).body = x.body := by
  rw [sound_over x n frames ending sound] at past
  obtain ⟨result, rfl⟩ := Option.isSome_iff_exists.mp past
  obtain ⟨more, grown, closed⟩ := (x.move_onward m).writings
  cases result with
  | ok done => rw [body, grown, response_ended _ _ (sound.last (sound.clean rfl)), body]
  | error e => rw [body, grown, closed (sound.broken e rfl).1, List.append_nil, body]

omit sound in
theorem body_leads (m : Move) : x.body <+: (x.move m).body := by
  obtain ⟨more, grown, -⟩ := (x.move_onward m).writings
  rw [body, body, grown]
  exact (response_leads x.writings more).filterMap _

theorem returning_open (measured : x.Measured) (m : Move) (present : x.channel.reader ≠ .gone)
    (ongoing : x.isOver = false) :
    ∀ answer ∈ (x.move m).returned, answer.1.1 = false := by
  rcases (x.move_onward m).returned with same | ⟨w, result, current, grown⟩
  · rw [same]
    exact measured.undone present ongoing
  · have standing := sound.standing
    rw [current] at standing
    cases standing with
    | done w result empty all =>
        have unended : w.1 = false := by
          refine Bool.eq_false_iff.mpr fun last => ?_
          have member : w ∈ x.writings := by simp [writings, current]
          cases ended : x.channel.ended with
          | false =>
              obtain ⟨v, going⟩ := sound.closing ended present ⟨w, member, last⟩
              cases current.symm.trans going
          | true =>
              have unended : ending = none := by simpa [sound_over x n frames ending sound] using ongoing
              cases empty.symm.trans (sound.final ended present unended)
        rw [grown, List.forall_mem_append, List.forall_mem_singleton]
        exact ⟨measured.undone present ongoing, unended⟩

theorem writer_measured (m : Move) (writer : m ≠ .accept ∧ m ≠ .poll ∧ m ≠ .leave) (measured : x.Measured) :
    (x.move m).Measured := by
  obtain ⟨reader, told⟩ := x.writer_silent m writer
  have pulled : (x.move m).frames = x.frames := by rw [Transfer.frames, told, Transfer.frames]
  have concluded : (x.move m).isOver = x.isOver := by rw [isOver, told, isOver]
  refine ⟨?_, ?_, ?_, ?_⟩
  · intro size ended reading
    obtain ⟨head, opening, same⟩ := measured.sized size ended (reader.symm.trans reading)
    exact ⟨head, (x.move_onward m).opening head opening, same⟩
  · rw [reader, concluded]
    exact returning_open x n frames ending sound measured m
  · rw [pulled]
    exact measured.within.trans (x.body_leads m)
  · rw [pulled, concluded]
    intro past
    rw [over_body x n frames ending sound m past]
    exact measured.whole past

theorem accept_measured (measured : x.Measured) : (x.move .accept).Measured := by
  have same (pending : x.channel.accept = (x.channel, .pending)) : (x.move .accept).Measured := by
    rw [show x.move .accept = x by simp [move, pending, Opening.told]]
    exact measured
  cases reader : x.channel.reader with
  | reading size ended => exact same (by simp [accept, reader])
  | gone => exact same (by simp [accept, reader])
  | waiting =>
      obtain ⟨untold, offered⟩ := sound.waiting reader
      have pulled : x.frames = [] := by rw [Transfer.frames, untold]; rfl
      cases opening : x.opening with
      | some head =>
          have accepts : x.channel.accept =
              ({ x.channel with offered := none, reader := .reading (.ofHeaders head.headers) false },
                .response head) := by
            simp [accept, reader, offered, opening]
          have ongoing : x.isOver = false := by rw [isOver, untold]; rfl
          rw [move, accepts, untold]
          refine ⟨?_, fun _ _ => measured.undone (by simp [reader]) ongoing, List.nil_prefix, ?_⟩
          · rintro size ended ⟨⟩
            exact ⟨head, opening, rfl⟩
          · rintro ⟨⟩
      | none =>
          cases closed : x.channel.closed with
          | false => exact same (by simp [accept, reader, offered, opening, closed])
          | true =>
              have accepts : x.channel.accept = ({ x.channel with reader := .gone }, .refused droppedBeforeCommit) := by
                simp [accept, reader, offered, opening, closed]
              have empty : x.body = [] := by rw [body, sound.opened.mp opening]; rfl
              rw [move, accepts, untold]
              refine ⟨?_, fun gone => (gone rfl).elim, List.nil_prefix, fun _ => empty.symm⟩
              rintro size ended ⟨⟩

omit sound in
theorem told_measured (measured : x.Measured) (c : Channel) (told : Told) (size : PayloadSize) (before ended : Bool)
    (reader : x.channel.reader = .reading size before) (reading : c.reader = .reading size ended)
    (whole : x.frames ++ (Told.data? told).toList = x.body) :
    Measured { x with channel := c, told := x.told ++ [told] } := by
  have pulled : Transfer.frames { x with channel := c, told := x.told ++ [told] } = x.body := by
    rw [← whole, Transfer.frames, List.filterMap_append, ← Transfer.frames]
    cases told <;> rfl
  have concluded : isOver { x with channel := c, told := x.told ++ [told] } = (x.isOver || [told].any Told.isEnd) :=
    List.any_append
  refine ⟨?_, ?_, ?_, fun _ => pulled⟩
  · intro size' ended' reading'
    obtain ⟨rfl, -⟩ : size = size' ∧ ended = ended' := by simpa [reading] using reading'
    exact measured.sized size before reader
  · rw [concluded, Bool.or_eq_false_iff]
    exact fun _ ongoing => measured.undone (by simp [reader]) ongoing.1
  · rw [pulled]
    exact List.prefix_refl _

theorem end_measured (measured : x.Measured) (c : Channel) (told : Told) (size : PayloadSize)
    (reader : x.channel.reader = .reading size false) (reading : c.reader = .reading size true)
    (silent : Told.data? told = none)
    (unfilled : ∀ data, x.channel.slot ≠ .full (.chunk data)) :
    Measured { x with channel := c, told := x.told ++ [told] } := by
  have present : x.channel.reader ≠ .gone := by simp [reader]
  have unended := (sound.reading size false reader).2.2
  have ongoing : x.isOver = false := (sound_over x n frames ending sound).trans unended
  have level := frames_level x n frames ending sound present (by simpa using unended) unfilled
  have whole : x.frames ++ (Told.data? told).toList = x.body := by
    rw [silent, body_whole x measured present ongoing, level]
    exact List.append_nil _
  exact told_measured x measured c told size false true reader reading whole

theorem poll_measured (measured : x.Measured) : (x.move .poll).Measured := by
  have same (pending : x.channel.poll = (x.channel, .pending)) : (x.move .poll).Measured := by
    rw [show x.move .poll = x by simp [move, pending, Pull.told]]
    exact measured
  cases reader : x.channel.reader with
  | waiting => exact same (by simp [poll, reader])
  | gone => exact same (by simp [poll, reader])
  | reading size ended =>
      have concluded : x.isOver = ended :=
        (sound_over x n frames ending sound).trans (sound.reading size ended reader).2.2
      cases ended with
      | true =>
          have polls : x.channel.poll = (x.channel, .ended) := by simp [poll, reader]
          rw [move, polls]
          exact told_measured x measured _ .ended size true true reader reader
            ((List.append_nil _).trans (measured.whole concluded))
      | false =>
          cases slot : x.channel.slot with
          | full item =>
              cases item with
              | chunk data =>
                  have polls : x.channel.poll = ({ x.channel with slot := .taken }, .frame data) := by
                    simp [poll, reader, slot]
                  have whole := body_whole x measured (by simp [reader]) concluded
                  rw [move, polls]
                  exact told_measured x measured _ (.frame data) size false false reader reader
                    ((frames_pulled x n frames ending sound data slot).trans whole.symm)
              | eof =>
                  have polls : x.channel.poll =
                      ({ x.channel with slot := .taken, reader := .reading size true }, .ended) := by
                    simp [poll, reader, slot]
                  rw [move, polls]
                  exact end_measured x n frames ending sound measured _ .ended size reader rfl rfl (by simp [slot])
          | _ =>
              cases closed : x.channel.closed with
              | false => exact same (by simp [poll, reader, slot, closed])
              | true =>
                  have polls : x.channel.poll =
                      ({ x.channel with reader := .reading size true }, .failed droppedBeforeEnd) := by
                    simp [poll, reader, slot, closed]
                  rw [move, polls]
                  exact end_measured x n frames ending sound measured _ (.failed droppedBeforeEnd) size reader rfl rfl
                    (by simp [slot])

omit sound in
theorem leave_measured (measured : x.Measured) : (x.move .leave).Measured :=
  ⟨nofun, fun gone => (gone rfl).elim, measured.within, measured.whole⟩

theorem move_measured (m : Move) (measured : x.Measured) : (x.move m).Measured := by
  cases m with
  | accept => exact accept_measured x n frames ending sound measured
  | poll => exact poll_measured x n frames ending sound measured
  | leave => exact x.leave_measured measured
  | _ => exact writer_measured x n frames ending sound _ ⟨nofun, nofun, nofun⟩ measured

theorem play_measured (moves : List Move) (measured : x.Measured) : (x.play moves).Measured := by
  induction moves generalizing x n frames ending with
  | nil => exact measured
  | cons m rest ih =>
      obtain ⟨n', frames', ending', next⟩ := move_sound x n frames ending sound m
      exact ih (x.move m) n' frames' ending' next (move_measured x n frames ending sound m measured)

theorem play_body (moves : List Move) :
    x.body <+: (x.play moves).body ∧ (x.isOver = true → (x.play moves).body = x.body) := by
  induction moves generalizing x n frames ending with
  | nil => exact ⟨List.prefix_refl _, fun _ => rfl⟩
  | cons m rest ih =>
      obtain ⟨n', frames', ending', next⟩ := move_sound x n frames ending sound m
      obtain ⟨leads, stays⟩ := ih (x.move m) n' frames' ending' next
      refine ⟨(x.body_leads m).trans leads, fun past => ?_⟩
      exact (stays (x.move_over m past)).trans (over_body x n frames ending sound m past)

end Measuring

-- Of a response whose declared length is that of its body the bounds are this length until the end is
-- pulled. What is still to come is never above them, and below them as soon as something was pulled.
theorem hint_covers (head opened : Head) (moves later : List Move) (size : PayloadSize) (ended : Bool)
    (reader : ((new head).play moves).channel.reader = .reading size ended)
    (opening : ((new head).play moves).opening = some opened)
    (declared : opened.Declares (((new head).play moves).play later).body.flatten.length) :
    let x := (new head).play moves
    let y := x.play later
    ∃ rest, x.frames ++ rest = y.body ∧
      x.channel.hint = .exact (if ended then 0 else y.body.flatten.length) ∧
      (∀ upper, x.channel.hint.upper = some upper → rest.flatten.length ≤ upper) ∧
      (x.channel.hint.Covers rest.flatten.length ↔ x.frames.flatten = [] ∨ ended = true) := by
  intro x y
  have start := new_sound head
  obtain ⟨n, frames, ending, sound⟩ := play_sound (new head) 0 [] none start moves
  have measured : x.Measured := play_measured (new head) 0 [] none start moves (new_measured head)
  obtain ⟨leads, stays⟩ := play_body x n frames ending sound later
  obtain ⟨known, opening', rfl⟩ := measured.sized size ended reader
  obtain rfl : opened = known := Option.some.inj (opening.symm.trans opening')
  have hint : x.channel.hint = .exact (if ended then 0 else y.body.flatten.length) := by
    rw [hint, reader]
    cases ended with
    | true => rfl
    | false => exact declared_hint opened _ declared
  obtain ⟨rest, whole⟩ := measured.within.trans leads
  have octets : x.frames.flatten.length + rest.flatten.length = y.body.flatten.length := by
    rw [← List.length_append, ← List.flatten_append, whole]
  refine ⟨rest, whole, hint, ?_⟩
  rw [hint, exact_covers]
  cases ended with
  | true =>
      have past : x.isOver = true := (sound_over x n frames ending sound).trans (sound.reading _ true reader).2.2
      have none_left : rest.flatten.length = 0 := by
        have same : y.body = x.frames := (stays past).trans (measured.whole past).symm
        rw [same] at octets
        omega
      exact ⟨fun upper _ => by omega, iff_of_true none_left.symm (.inr rfl)⟩
  | false =>
      rw [← List.length_eq_zero_iff]
      refine ⟨?_, ?_⟩
      · intro upper bound
        obtain rfl := Option.some.inj bound
        simp only [Bool.false_eq_true, if_false]
        omega
      · simp only [Bool.false_eq_true, if_false, or_false]
        omega

def fiveOctets : Head := { Head.empty with headers := Header.Map.empty.insert .contentLength ⟨[53], by decide⟩ }

theorem five_declared : fiveOctets.Declares 5 := ⟨⟨[53], by decide⟩, ['5'], rfl, rfl, rfl⟩

def firstFrame : List Move := [.write false (some [104, 101]), .accept, .poll]

def otherFrame : List Move :=
  [.proceed, .proceed, .write true (some [108, 108, 111]), .poll, .proceed, .poll, .proceed, .proceed]

theorem hint_covers_opened :
    ((new fiveOctets).play firstFrame).channel.hint = .exact 5 ∧
    ∃ rest : List Bytes, [[104, 101]] ++ rest = [[104, 101], [108, 108, 111]] ∧ rest.flatten.length ≤ 5 := by
  obtain ⟨rest, whole, hint, upper, -⟩ :=
    hint_covers fiveOctets fiveOctets firstFrame otherFrame (.length 5) false rfl rfl five_declared
  exact ⟨hint, rest, whole, upper 5 (by rw [hint]; rfl)⟩

-- All five octets are pulled, and the bounds still promise five more.
theorem pulled_promised :
    let x := (new fiveOctets).play [.write false (some [104, 101, 108, 108, 111]), .accept, .poll]
    let y := x.play [.proceed, .proceed, .write true none, .poll, .proceed, .proceed]
    y.opening = some fiveOctets ∧ fiveOctets.Declares y.body.flatten.length ∧
    y.told = [.head fiveOctets, .frame [104, 101, 108, 108, 111], .ended] ∧
    x.frames = y.body ∧ x.channel.hint = .exact 5 ∧ ¬ x.channel.hint.Covers 0 := by
  refine ⟨rfl, five_declared, rfl, rfl, rfl, fun covers => ?_⟩
  cases (exact_covers 5 0).mp covers

end Transfer

end Gateway
