import Gateway.Proofs.Sink.Pushing

set_option autoImplicit false

namespace Gateway

open Channel

namespace Transfer

def Told.isEnd : Told → Bool
  | .ended => true
  | .refused _ => true
  | .failed _ => true
  | _ => false

def isOver (x : Transfer) : Bool := x.told.any Told.isEnd

theorem Account.told_end (opening : Option Head) (told : List Told) (frames : List Bytes) (ending : Option Sent)
    (account : Account opening told frames ending) : told.any Told.isEnd = ending.isSome := by
  cases account <;> simp [Told.isEnd]

theorem move_told (x : Transfer) (m : Move) : ∃ more, (x.move m).told = x.told ++ more := by
  cases m with
  | edit head => exact ⟨[], by rw [move]; split <;> simp⟩
  | write last content => exact ⟨[], by rw [move]; split <;> simp [enter]⟩
  | body frames => exact ⟨[], by rw [move]; split <;> simp⟩
  | proceed =>
      refine ⟨[], ?_⟩
      rw [move, proceed, List.append_nil]
      split
      · rfl
      · split <;> rfl
  | accept => exact ⟨_, rfl⟩
  | poll => exact ⟨_, rfl⟩
  | _ => exact ⟨[], by simp [move]⟩

theorem move_over (x : Transfer) (m : Move) (past : x.isOver = true) : (x.move m).isOver = true := by
  obtain ⟨more, told⟩ := x.move_told m
  rw [isOver, told, List.any_append, Bool.or_eq_true]
  exact .inl past

structure Coming (x : Transfer) : Prop where
  present : x.channel.reader ≠ .gone
  due : x.channel.closed = true ∨ ∃ w ∈ x.writings, w.1 = true

inductive Awaits (x : Transfer) : Prop where
  | dropped (closed : x.channel.closed = true)
  | content (w : Writing) (open_ : x.channel.closed = false) (current : x.current = some (w, .content true))
      (slot : (∃ data, x.channel.slot = .full (.chunk data)) ∨ x.channel.slot = .taken)
  | ending (w : Writing) (open_ : x.channel.closed = false) (current : x.current = some (w, .ending))
      (slot : x.channel.slot = .full .eof)

section Ending

variable (x : Transfer) (n : Nat) (frames : List Bytes) (sound : x.Sound n frames none) (coming : x.Coming)

include sound coming

theorem coming_awaits : x.Awaits := by
  obtain ⟨present, due⟩ := coming
  cases closed : x.channel.closed with
  | true => exact .dropped closed
  | false =>
      have last := due.resolve_left (by simp [closed])
      have standing := sound.standing
      cases ended : x.channel.ended with
      | true =>
          have slot := sound.final ended present rfl
          generalize current : x.current = c at standing
          cases standing with
          | ending w _ _ _ _ => exact .ending w closed current slot
          | idle other => simp [slot] at other
          | offered _ _ _ _ other | taken _ _ other | lost _ _ other | ended _ _ other | cut _ _ other | done _ _ other =>
              simp [slot] at other
      | false =>
          obtain ⟨w, current⟩ := sound.closing ended present last
          refine .content w closed current ?_
          rw [current] at standing
          generalize phase : Phase.content true = p at standing
          cases standing with
          | offered _ data _ _ slot => exact .inl ⟨data, slot⟩
          | taken _ _ slot => exact .inr slot
          | lost _ _ _ gone => exact (present gone).elim
          | _ => cases phase

theorem coming_busy : x.isIdle = false := by
  cases coming_awaits x n frames sound coming with
  | dropped closed => simp [isIdle, closed]
  | content w _ current _ => simp [isIdle, current]
  | ending w _ current _ => simp [isIdle, current]

end Ending

def Nears (x : Transfer) : Nat → Prop
  | 0 => False
  | 1 => x.channel.reader ≠ .waiting ∧
      (x.channel.slot = .full .eof ∨ x.channel.closed = true ∧ ∀ item, x.channel.slot ≠ .full item)
  | 2 => x.channel.reader ≠ .waiting ∧ ∀ data, x.channel.slot ≠ .full (.chunk data)
  | 3 => x.channel.reader ≠ .waiting
  | _ => True

def Stage (x : Transfer) (k : Nat) : Prop := x.isOver = true ∨ x.Coming ∧ x.Nears k

theorem nears_congr (x y : Transfer) (k : Nat) (reader : y.channel.reader = .waiting → x.channel.reader = .waiting)
    (slot : y.channel.slot = x.channel.slot) (closed : x.channel.closed = true → y.channel.closed = true)
    (nears : x.Nears k) : y.Nears k := by
  match k with
  | 0 => exact nears
  | 1 => exact ⟨mt reader nears.1, nears.2.imp slot.trans fun here => ⟨closed here.1, slot ▸ here.2⟩⟩
  | 2 => exact ⟨mt reader nears.1, slot ▸ nears.2⟩
  | 3 => exact mt reader nears
  | _ + 4 => trivial

theorem nears_opened (x : Transfer) (k : Nat) (nears : x.Nears k) (waits : x.channel.reader = .waiting) : 4 ≤ k := by
  match k with
  | 0 => exact nears.elim
  | 1 => exact (nears.1 waits).elim
  | 2 => exact (nears.1 waits).elim
  | 3 => exact (nears waits).elim
  | k + 4 => omega

theorem nears_emptied (x : Transfer) (k : Nat) (data : Bytes) (nears : x.Nears k)
    (slot : x.channel.slot = .full (.chunk data)) : 3 ≤ k := by
  match k with
  | 0 => exact nears.elim
  | 1 =>
      rcases nears.2 with eof | ⟨-, empty⟩
      · simp [slot] at eof
      · exact (empty _ slot).elim
  | 2 => exact (nears.2 data slot).elim
  | k + 3 => omega

theorem nears_open (x : Transfer) (k : Nat) (opened : x.channel.reader ≠ .waiting) (enough : 3 ≤ k) : x.Nears k := by
  match k with
  | 3 => exact opened
  | k + 4 => trivial

theorem nears_ready (x : Transfer) (k : Nat) (some_left : k ≠ 0) (slot : x.channel.slot = .full .eof)
    (opened : k ≤ 3 → x.channel.reader ≠ .waiting) : x.Nears k := by
  match k with
  | 0 => exact (some_left rfl).elim
  | 1 => exact ⟨opened (by omega), .inl slot⟩
  | 2 => exact ⟨opened (by omega), by simp [slot]⟩
  | 3 => exact opened (Nat.le_refl 3)
  | k + 4 => trivial

section Staging

variable (x : Transfer) (n : Nat) (frames : List Bytes) (sound : x.Sound n frames none) (coming : x.Coming) (k : Nat)

include sound coming

theorem accept_stage (nears : x.Nears k) :
    (x.move .accept).Stage k ∧ (x.move .accept).Stage 3 := by
  have same (reader : x.channel.reader ≠ .waiting) (pending : x.channel.accept = (x.channel, .pending)) :
      (x.move .accept).Stage k ∧ (x.move .accept).Stage 3 := by
    rw [show x.move .accept = x by simp [move, pending, Opening.told]]
    exact ⟨.inr ⟨coming, nears⟩, .inr ⟨coming, reader⟩⟩
  cases reader : x.channel.reader with
  | gone => exact (coming.present reader).elim
  | reading size ended => exact same (by simp [reader]) (by simp [accept, reader])
  | waiting =>
      have offered := (sound.waiting reader).2
      cases opening : x.opening with
      | some head =>
          have accepts : x.channel.accept =
              ({ x.channel with offered := none, reader := .reading (.ofHeaders head.headers) false },
                .response head) := by
            simp [accept, reader, offered, opening]
          have next : (x.move .accept).Coming := by
            simp only [move, accepts]
            exact ⟨by simp, coming.due⟩
          have opened : (x.move .accept).channel.reader ≠ .waiting := by
            simp only [move, accepts]
            rintro ⟨⟩
          have slot : (x.move .accept).channel.slot = x.channel.slot := by simp only [move, accepts]
          have closed : (x.move .accept).channel.closed = x.channel.closed := by simp only [move, accepts]
          exact ⟨.inr ⟨next, nears_congr x _ k (fun waits => (opened waits).elim) slot closed.trans nears⟩,
            .inr ⟨next, opened⟩⟩
      | none =>
          obtain ⟨unwritten, -⟩ := unopened_idle x n frames none sound opening
          have closed : x.channel.closed = true := by simpa [unwritten] using coming.due
          have past : (x.move .accept).isOver = true := by
            simp [move, accept, reader, offered, opening, closed, isOver, Opening.told, Told.isEnd]
          exact ⟨.inl past, .inl past⟩

theorem poll_stage (nears : x.Nears k) :
    (x.move .poll).Stage k ∧ (k = 3 → (x.move .poll).Stage 2) ∧ (k = 1 → (x.move .poll).isOver = true) := by
  have same (pending : x.channel.poll = (x.channel, .pending)) : x.move .poll = x := by
    simp [move, pending, Pull.told]
  have stays : x.Stage k := .inr ⟨coming, nears⟩
  cases reader : x.channel.reader with
  | gone => exact (coming.present reader).elim
  | waiting =>
      have four := nears_opened x k nears reader
      rw [same (by simp [poll, reader])]
      exact ⟨stays, by omega, by omega⟩
  | reading size ended =>
      obtain rfl : ended = false := by simpa using (sound.reading size ended reader).2.2.symm
      have opened : x.channel.reader ≠ .waiting := by simp [reader]
      have ends (told : x.channel.poll.2.told.any Told.isEnd = true) : (x.move .poll).isOver = true := by
        rw [isOver, move, List.any_append, told, Bool.or_true]
      have past (told : x.channel.poll.2.told.any Told.isEnd = true) : (x.move .poll).Stage k ∧
          (k = 3 → (x.move .poll).Stage 2) ∧ (k = 1 → (x.move .poll).isOver = true) :=
        ⟨.inl (ends told), fun _ => .inl (ends told), fun _ => ends told⟩
      have still (pending : x.channel.poll = (x.channel, .pending))
          (chunk : ∀ data, x.channel.slot ≠ .full (.chunk data))
          (eof : x.channel.slot ≠ .full .eof) (open_ : x.channel.closed = false) : (x.move .poll).Stage k ∧
          (k = 3 → (x.move .poll).Stage 2) ∧ (k = 1 → (x.move .poll).isOver = true) := by
        rw [same pending]
        refine ⟨stays, fun _ => .inr ⟨coming, opened, chunk⟩, ?_⟩
        rintro rfl
        rcases nears.2 with full | ⟨closed, -⟩
        · exact (eof full).elim
        · cases open_.symm.trans closed
      cases slot : x.channel.slot with
      | full item =>
          cases item with
          | eof => exact past (by simp [poll, reader, slot, Pull.told, Told.isEnd])
          | chunk data =>
              have polls : x.channel.poll = ({ x.channel with slot := .taken }, .frame data) := by
                simp [poll, reader, slot]
              have three := nears_emptied x k data nears slot
              have next : (x.move .poll).Coming := by
                simp only [move, polls]
                exact ⟨coming.present, coming.due⟩
              have opened' : (x.move .poll).channel.reader ≠ .waiting := by
                simp only [move, polls]
                exact opened
              have taken : (x.move .poll).channel.slot = .taken := by simp only [move, polls]
              exact ⟨.inr ⟨next, nears_open _ k opened' three⟩,
                fun _ => .inr ⟨next, opened', by simp [taken]⟩, by omega⟩
      | _ =>
          cases closed : x.channel.closed with
          | true => exact past (by simp [poll, reader, slot, closed, Pull.told, Told.isEnd])
          | false => exact still (by simp [poll, reader, slot, closed]) (by simp [slot]) (by simp [slot]) closed

theorem proceed_stage (nears : x.Nears k) : x.proceed.Stage k ∧ (k = 2 → x.proceed.Stage 1) := by
  have still (same : x.proceed = x)
      (near : (∀ data, x.channel.slot ≠ .full (.chunk data)) →
        x.channel.slot = .full .eof ∨ x.channel.closed = true ∧ ∀ item, x.channel.slot ≠ .full item) :
      x.proceed.Stage k ∧ (k = 2 → x.proceed.Stage 1) := by
    rw [same]
    refine ⟨.inr ⟨coming, nears⟩, ?_⟩
    rintro rfl
    exact .inr ⟨coming, nears.1, near nears.2⟩
  cases coming_awaits x n frames sound coming with
  | dropped closed =>
      refine still (by rw [proceed, if_pos closed]) fun chunk => ?_
      by_cases eof : x.channel.slot = .full .eof
      · exact .inl eof
      · refine .inr ⟨closed, fun item full => ?_⟩
        cases item with
        | chunk data => exact chunk data full
        | eof => exact eof full
  | ending w open_ current slot =>
      refine still ?_ fun _ => .inl slot
      simp only [proceed, open_, Bool.false_eq_true, if_false, current]
      exact resume_waits x w _ current (x.channel.resume_full _ _ slot)
  | content w open_ current slot =>
      rcases slot with ⟨data, full⟩ | taken
      · refine still ?_ fun chunk => (chunk data full).elim
        simp only [proceed, open_, Bool.false_eq_true, if_false, current]
        exact resume_waits x w _ current (x.channel.resume_full _ _ full)
      · have proceeds : x.proceed = { x with
            channel := { x.channel with slot := .full .eof, ended := true }, current := some (w, .ending) } := by
          simp [proceed, open_, current, resume, resume_last _ taken coming.present]
        have next : x.proceed.Coming := by
          rw [proceeds]
          refine ⟨coming.present, .inr ?_⟩
          obtain ⟨v, member, last⟩ := coming.due.resolve_left (by simp [open_])
          refine ⟨v, ?_, last⟩
          simpa [writings, current] using member
        have slot : x.proceed.channel.slot = .full .eof := by rw [proceeds]
        have reader : x.proceed.channel.reader = x.channel.reader := by rw [proceeds]
        have opened (few : k ≤ 3) : x.proceed.channel.reader ≠ .waiting := by
          rw [reader]
          intro waits
          have := nears_opened x k nears waits
          omega
        have some_left : k ≠ 0 := by
          rintro rfl
          exact nears
        refine ⟨.inr ⟨next, nears_ready _ k some_left slot opened⟩, ?_⟩
        rintro rfl
        exact .inr ⟨next, nears_ready _ 1 (by simp) slot fun _ => opened (by omega)⟩

end Staging

section Concluding

variable (x : Transfer) (n : Nat) (frames : List Bytes) (ending : Option Sent) (sound : x.Sound n frames ending)

include sound

omit sound in
theorem close_stage (k : Nat) (coming : x.Coming) (nears : x.Nears k) : (x.move .close).Stage k :=
  .inr ⟨⟨coming.present, .inl rfl⟩, nears_congr x _ k id rfl (fun _ => rfl) nears⟩

theorem going_on (k : Nat) (stage : x.Stage k) :
    x.isOver = true ∨ x.Sound n frames none ∧ x.Coming ∧ x.Nears k := by
  rcases stage with past | here
  · exact .inl past
  · cases ending with
    | none => exact .inr ⟨sound, here⟩
    | some result => exact .inl (sound.account.told_end _ _ _ _)

theorem move_stage (m : Move) (k : Nat) (stays : m ≠ .leave) (stage : x.Stage k) : (x.move m).Stage k := by
  rcases going_on x n frames ending sound k stage with past | ⟨sound, coming, nears⟩
  · exact .inl (move_over x m past)
  · have busy := coming_busy x n frames sound coming
    have same : x.Stage k := .inr ⟨coming, nears⟩
    cases m with
    | edit head => rwa [move, if_neg (by simp [busy])]
    | write last content => rwa [move, if_neg (by simp [busy])]
    | body frames => rwa [move, if_neg (by simp [busy])]
    | proceed => exact (proceed_stage x n frames sound coming k nears).1
    | close => exact close_stage x k coming nears
    | accept => exact (accept_stage x n frames sound coming k nears).1
    | poll => exact (poll_stage x n frames sound coming k nears).1
    | leave => exact (stays rfl).elim

def needed : Nat → Move
  | 1 => .poll
  | 2 => .proceed
  | 3 => .poll
  | _ => .accept

def needs : Nat → List Move
  | 0 => []
  | k + 1 => needed (k + 1) :: needs k

theorem needed_stage (k : Nat) (few : k ≤ 3) (stage : x.Stage (k + 1)) : (x.move (needed (k + 1))).Stage k := by
  rcases going_on x n frames ending sound (k + 1) stage with past | ⟨sound, coming, nears⟩
  · exact .inl (move_over x _ past)
  · match k with
    | 0 => exact .inl ((poll_stage x n frames sound coming 1 nears).2.2 rfl)
    | 1 => exact (proceed_stage x n frames sound coming 2 nears).2 rfl
    | 2 => exact (poll_stage x n frames sound coming 3 nears).2.1 rfl
    | 3 => exact (accept_stage x n frames sound coming 4 nears).2

theorem play_over (moves : List Move) (k : Nat) (few : k ≤ 4) (stay : .leave ∉ moves) (stage : x.Stage k)
    (enough : (needs k).Sublist moves) : (x.play moves).isOver = true := by
  induction moves generalizing x n frames ending k with
  | nil =>
      match k with
      | 0 => exact stage.resolve_right fun here => here.2
      | k + 1 => cases enough
  | cons m rest ih =>
      obtain ⟨n', frames', ending', next⟩ := move_sound x n frames ending sound m
      simp only [List.mem_cons, not_or] at stay
      have later := move_stage x n frames ending sound m k (Ne.symm stay.1) stage
      match k with
      | 0 => exact ih (x.move m) n' frames' ending' next 0 few stay.2 later (List.nil_sublist rest)
      | k + 1 =>
          cases enough with
          | cons _ enough => exact ih (x.move m) n' frames' ending' next (k + 1) few stay.2 later enough
          | cons_cons _ enough =>
              have nearer := needed_stage x n frames ending sound k (by omega) stage
              exact ih _ n' frames' ending' next k (by omega) stay.2 nearer enough

theorem flight_stays (item : PayloadItem) (slot : x.channel.slot = .full item) :
    x.current ≠ none ∧ ∀ m, m ≠ .poll → m ≠ .leave → (x.move m).channel.slot = .full item := by
  have standing := sound.standing
  obtain ⟨w, phase, current, waits⟩ : ∃ w phase, x.current = some (w, phase) ∧ x.proceed = x := by
    have still (w : Writing) (phase : Phase) (going : ∀ result, phase ≠ .done result)
        (current : x.current = some (w, phase))
        (waits : x.channel.resume phase = (x.channel, phase)) : x.proceed = x := by
      cases closed : x.channel.closed with
      | true => rw [proceed, if_pos closed]
      | false =>
          rw [proceed, if_neg (by simp [closed]), current]
          cases phase with
          | done result => exact (going result rfl).elim
          | _ => exact resume_waits x w _ current waits
    generalize here : x.current = c at standing
    cases standing with
    | offered w data content _ full _ _ =>
        exact ⟨w, _, rfl, still w (.content w.1) (by simp) here (x.channel.resume_full _ _ full)⟩
    | ending w _ full _ _ => exact ⟨w, _, rfl, still w .ending (by simp) here (x.channel.resume_full _ _ full)⟩
    | idle other => simp [slot] at other
    | taken _ _ other | lost _ _ other | ended _ _ other | cut _ _ other | done _ _ other => simp [slot] at other
  have busy : x.isIdle = false := by simp [isIdle, current]
  refine ⟨by simp [current], fun m unpulled stays => ?_⟩
  cases m with
  | edit head => rwa [move, if_neg (by simp [busy])]
  | write last content => rwa [move, if_neg (by simp [busy])]
  | body frames => rwa [move, if_neg (by simp [busy])]
  | proceed => rwa [move, waits]
  | close => exact slot
  | accept =>
      rw [move]
      have same : x.channel.accept.1.slot = x.channel.slot := by
        unfold accept
        split
        · split
          · rfl
          · split <;> rfl
        · rfl
      exact same.trans slot
  | poll => exact (unpulled rfl).elim
  | leave => exact (stays rfl).elim

end Concluding

-- A last write stands short of the end: what it has to hand over behind its content is still to come.
def IsShort (x : Transfer) : Prop := ∃ w, x.current = some (w, .content true)

structure Concludes (dropped : Prop) (x : Transfer) (frames : List Bytes) (result : Sent) : Prop where
  clean : result = .ok () ↔ (∃ w ∈ x.writings, w.1 = true) ∧ ¬ (dropped ∧ x.IsShort)
  broken : result ≠ .ok () → dropped ∧ frames = contents x.writings ∧
    result = .error (if x.writings = [] then droppedBeforeCommit else droppedBeforeEnd)

section Concluding

variable (x : Transfer) (n : Nat) (frames : List Bytes) (result : Sent) (sound : x.Sound n frames (some result))

include sound

theorem clean_whole (clean : result = .ok ()) : (∃ w ∈ x.writings, w.1 = true) ∧ ¬ x.IsShort := by
  have ended : x.channel.ended = true := sound.clean (congrArg some clean)
  refine ⟨sound.last ended, ?_⟩
  rintro ⟨w, current⟩
  have standing := sound.standing
  rw [current] at standing
  generalize phase : Phase.content true = p at standing
  cases standing with
  | offered _ _ _ open_ | taken _ open_ | lost _ open_ => exact absurd (ended.symm.trans open_) nofun
  | _ => cases phase

theorem broken_error (e : SendError) (broken : result = .error e) :
    e = if x.writings = [] then droppedBeforeCommit else droppedBeforeEnd := by
  subst broken
  have opened := sound.opened
  have account := sound.account
  generalize x.opening = opening, x.told = told at opened account
  cases account with
  | refused unopened => rw [if_pos (opened.mp unopened)]
  | failed head frames more begun => rw [if_neg fun unwritten => by cases begun.symm.trans (opened.mpr unwritten)]

theorem sound_concludes (dropped : Prop) (closes : x.channel.closed = true ↔ dropped) :
    x.Concludes dropped frames result := by
  cases result with
  | ok done =>
      obtain ⟨last, whole⟩ := clean_whole x n frames _ sound rfl
      exact ⟨⟨fun _ => ⟨last, fun short => whole short.2⟩, fun _ => rfl⟩, fun failed => (failed rfl).elim⟩
  | error e =>
      obtain ⟨closed, all, short⟩ := sound.broken e rfl
      refine ⟨⟨nofun, fun ⟨last, whole⟩ => (whole ⟨closes.mp closed, short last⟩).elim⟩,
        fun _ => ⟨closes.mp closed, all, ?_⟩⟩
      rw [← broken_error x n frames _ sound e rfl]

end Concluding

theorem play_append (x : Transfer) (front back : List Move) : x.play (front ++ back) = (x.play front).play back :=
  List.foldl_append

-- Once the sink is dropped the writer has no part in it any more.
theorem dropped_over (x : Transfer) (n : Nat) (frames : List Bytes) (ending : Option Sent)
    (sound : x.Sound n frames ending)
    (later : List Move) (present : x.channel.reader ≠ .gone) (closed : x.channel.closed = true) (stay : .leave ∉ later)
    (enough : List.Sublist [.accept, .poll, .poll] later) : (x.play later).isOver = true := by
  obtain ⟨front, back, rfl, before, after⟩ :=
    List.append_sublist_iff.mp (show List.Sublist ([.accept, .poll] ++ [.poll]) later from enough)
  have idle : (x.play front).move .proceed = x.play front := if_pos ((play_closed x front).mpr (.inl closed))
  -- The bound is one on runs in which the writer moves too: one such move is put in, and does nothing.
  have same : x.play (front ++ .proceed :: back) = x.play (front ++ back) :=
    calc x.play (front ++ .proceed :: back)
      _ = ((x.play front).move .proceed).play back := play_append x front _
      _ = (x.play front).play back := by rw [idle]
      _ = x.play (front ++ back) := (play_append x front back).symm
  rw [← same]
  refine play_over x n frames ending sound _ 4 (Nat.le_refl 4) (by simpa using stay)
    (.inr ⟨⟨present, .inl closed⟩, trivial⟩) ?_
  exact before.append (after.cons_cons _)

theorem delivers (head : Head) (moves : List Move) :
    let x := (new head).play moves
    ∃ (n : Nat) (frames : List Bytes) (ending : Option Sent),
      -- The reader was told the head as it was at the first write, the frames, and the end once.
      Account x.opening x.told frames ending ∧ (x.opening = none ↔ x.writings = []) ∧
      -- The frames are the contents of the first writes, and all those of the writes that succeeded.
      frames = contents (x.writings.take n) ∧
      (∀ (i : Nat) (w : Writing), x.returned[i]? = some (w, .ok ()) → w.tidy.2 ≠ none → i < n) ∧
      -- The item in flight is alone, and its write waits for the reader.
      (∀ item, x.channel.slot = .full item →
        x.current ≠ none ∧ ∀ m, m ≠ .poll → m ≠ .leave → (x.move m).channel.slot = .full item) ∧
      -- The end is clean where a last write was made, unless the sink was dropped in the middle of it.
      (∀ result, ending = some result → x.Concludes (.close ∈ moves) frames result) ∧
      -- A reader that stays and goes on comes to the end behind a last write, and when the sink is dropped.
      (x.channel.reader ≠ .gone → ∀ later, .leave ∉ later →
        (∃ w ∈ x.writings, w.1 = true) ∧ [.accept, .poll, .proceed, .poll].Sublist later ∨
          .close ∈ moves ∧ [.accept, .poll, .poll].Sublist later →
        ∃ frames result, Account (x.play later).opening (x.play later).told frames (some result) ∧
          (x.play later).Concludes (.close ∈ moves ++ later) frames result) := by
  intro x
  have closes (moves : List Move) : ((new head).play moves).channel.closed = true ↔ .close ∈ moves := by
    simp [play_closed, new, Channel.new]
  obtain ⟨n, frames, ending, sound⟩ := play_sound (new head) 0 [] none (new_sound head) moves
  refine ⟨n, frames, ending, sound.account, sound.opened, sound.pulled, sound.came, ?_, ?_, ?_⟩
  · exact flight_stays x n frames ending sound
  · rintro result rfl
    exact sound_concludes x n frames result sound _ (closes moves)
  · intro present later stay enough
    have past : (x.play later).isOver = true := by
      rcases enough with ⟨last, enough⟩ | ⟨dropped, enough⟩
      · exact play_over x n frames ending sound later 4 (Nat.le_refl 4) stay
          (.inr ⟨⟨present, .inr last⟩, trivial⟩) enough
      · exact dropped_over x n frames ending sound later present ((closes moves).mpr dropped) stay enough
    obtain ⟨n', frames', ending', sound'⟩ := play_sound x n frames ending sound later
    have told := sound'.account.told_end _ _ _ _
    obtain ⟨result, rfl⟩ := Option.isSome_iff_exists.mp (told.symm.trans past)
    refine ⟨frames', result, sound'.account, sound_concludes _ n' frames' result sound' _ ?_⟩
    rw [← closes (moves ++ later), play_append]

def greeting : List Move :=
  [.write false (some [104]), .accept, .poll, .proceed, .proceed, .write true (some [105])]

theorem delivers_greeting :
    (let x := ((Transfer.new .empty).play greeting).play [.accept, .poll, .proceed, .poll]
     x.told = [.head .empty, .frame [104], .frame [105], .ended] ∧
     ∃ frames result, Account x.opening x.told frames (some result) ∧ x.Concludes False frames result) ∧
    (let x := ((Transfer.new .empty).play [.write false (some [104]), .close]).play [.accept, .poll, .poll]
     x.told = [.head .empty, .frame [104], .failed droppedBeforeEnd] ∧
     ∃ frames result, Account x.opening x.told frames (some result) ∧ x.Concludes True frames result) := by
  obtain ⟨-, -, -, -, -, -, -, -, -, goes⟩ := delivers .empty greeting
  obtain ⟨-, -, -, -, -, -, -, -, -, breaks⟩ := delivers .empty [.write false (some [104]), .close]
  have reads : ((Transfer.new .empty).play greeting).channel.reader = .reading .chunked false := by rfl
  have waits : ((Transfer.new .empty).play [.write false (some [104]), .close]).channel.reader = .waiting := by rfl
  have written : ((Transfer.new .empty).play greeting).writings = [(false, some [104]), (true, some [105])] := by rfl
  refine ⟨⟨by rfl, ?_⟩, by rfl, ?_⟩
  · have ends := goes (by rw [reads]; nofun) [.accept, .poll, .proceed, .poll] (by simp)
      (.inl ⟨⟨(true, some [105]), by simp [written], rfl⟩, List.Sublist.refl _⟩)
    simpa [greeting] using ends
  · have ends := breaks (by rw [waits]; nofun) [.accept, .poll, .poll] (by simp) (.inr ⟨by simp, List.Sublist.refl _⟩)
    simpa using ends

-- The sink is dropped when the content of a last write has been pulled and its end not handed over. To a
-- reader that has left a write without content returns as well as to any other, but for the first.
theorem cut_short :
    (let x := (Transfer.new .empty).play [.write true (some [104]), .accept, .poll, .close, .poll, .poll]
     (∃ w ∈ x.writings, w.1 = true) ∧ x.told = [.head .empty, .frame [104], .failed droppedBeforeEnd, .ended]) ∧
    (let x := (Transfer.new .empty).play
        [.leave, .write false (some []), .proceed, .write false (some []), .proceed]
     x.returned = [((false, some []), .error receiverDropped), ((false, some []), .ok ())] ∧ x.told = []) :=
  ⟨⟨⟨(true, some [104]), List.mem_cons_self, rfl⟩, rfl⟩, rfl, rfl⟩

end Transfer

end Gateway
