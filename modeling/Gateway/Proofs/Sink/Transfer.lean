import Gateway.Proofs.Sink.Body
import Gateway.Sink.Channel

set_option autoImplicit false

namespace Gateway

namespace Channel

inductive Told where
  | head (head : Head)
  | refused (error : SendError)
  | frame (data : Bytes)
  | ended
  | failed (error : SendError)

def Opening.told : Opening → List Told
  | .pending => []
  | .response head => [.head head]
  | .refused error => [.refused error]

def Pull.told : Pull → List Told
  | .pending => []
  | .frame data => [.frame data]
  | .ended => [.ended]
  | .failed error => [.failed error]

-- What either end does: the writer edits the head, begins a write or a body, goes on with what it has
-- begun, and drops the sink. The reader asks for the head, asks for a frame, and leaves.
inductive Move where
  | edit (head : Head)
  | write (last : Bool) (content : Option Bytes)
  | body (frames : List Frame)
  | proceed
  | close
  | accept
  | poll
  | leave

end Channel

open Channel

structure Transfer where
  channel : Channel
  opening : Option Head
  -- The writes that have returned, in order, and the one that is under way.
  returned : List (Writing × Sent)
  current : Option (Writing × Phase)
  -- What is still to be written of the body that is being sent.
  due : List Writing
  told : List Told

namespace Transfer

def new (head : Head) : Transfer :=
  { channel := .new head, opening := none, returned := [], current := none, due := [], told := [] }

-- The writer has one call under way at most, and none once the sink is dropped.
def isIdle (x : Transfer) : Bool := x.current.isNone && x.due.isEmpty && !x.channel.closed

def enter (x : Transfer) (w : Writing) : Transfer :=
  { x with
    channel := (x.channel.start w.1 w.2).1
    opening := x.opening <|> some x.channel.head
    current := some (w, (x.channel.start w.1 w.2).2) }

def resume (x : Transfer) (w : Writing) (phase : Phase) : Transfer :=
  { x with channel := (x.channel.resume phase).1, current := some (w, (x.channel.resume phase).2) }

def settle (x : Transfer) (w : Writing) (result : Sent) : Transfer :=
  { x with
    returned := x.returned ++ [(w, result)]
    current := none
    due := if result.isOk then x.due else [] }

def proceed (x : Transfer) : Transfer :=
  if x.channel.closed then x
  else
    match x.current, x.due with
    | some (w, .done result), _ => x.settle w result
    | some (w, phase), _ => x.resume w phase
    | none, w :: rest => { x with due := rest }.enter w
    | none, [] => x

def move (x : Transfer) : Move → Transfer
  | .edit head => if x.isIdle then { x with channel := { x.channel with head } } else x
  | .write last content => if x.isIdle then x.enter (last, content) else x
  | .body frames => if x.isIdle then { x with due := (Frame.plan frames).1 } else x
  | .proceed => x.proceed
  | .close => { x with channel := x.channel.close }
  | .accept => { x with channel := x.channel.accept.1, told := x.told ++ x.channel.accept.2.told }
  | .poll => { x with channel := x.channel.poll.1, told := x.told ++ x.channel.poll.2.told }
  | .leave => { x with channel := x.channel.drop }

def play (x : Transfer) (moves : List Move) : Transfer := moves.foldl move x

def writings (x : Transfer) : List Writing := x.returned.map (·.1) ++ x.current.toList.map (·.1)

def contents (writings : List Writing) : List Bytes := writings.filterMap (·.tidy.2)

inductive Account (opening : Option Head) : List Told → List Bytes → Option Sent → Prop where
  | silent : Account opening [] [] none
  | refused (unopened : opening = none) :
      Account opening [.refused droppedBeforeCommit] [] (some (.error droppedBeforeCommit))
  | reading (head : Head) (frames : List Bytes) (opened : opening = some head) :
      Account opening (.head head :: frames.map .frame) frames none
  | ended (head : Head) (frames : List Bytes) (more : Nat) (opened : opening = some head) :
      Account opening (.head head :: (frames.map .frame ++ .ended :: List.replicate more .ended)) frames (some (.ok ()))
  | failed (head : Head) (frames : List Bytes) (more : Nat) (opened : opening = some head) :
      Account opening
        (.head head :: (frames.map .frame ++ .failed droppedBeforeEnd :: List.replicate more .ended)) frames
        (some (.error droppedBeforeEnd))

namespace Account

variable (opening : Option Head) (told : List Told) (frames : List Bytes) (ending : Option Sent)

theorem opened (account : Account opening told frames none) (some_told : told ≠ []) :
    ∃ head, opening = some head ∧ told = .head head :: frames.map .frame := by
  cases account with
  | silent => exact (some_told rfl).elim
  | reading head frames opened => exact ⟨head, opened, rfl⟩

theorem more (account : Account opening told frames ending) (past : ending ≠ none) (begun : opening ≠ none) :
    Account opening (told ++ [.ended]) frames ending := by
  cases account with
  | silent => exact (past rfl).elim
  | refused unopened => exact (begun unopened).elim
  | reading => exact (past rfl).elim
  | ended head frames more opened =>
      have grown := Account.ended head frames (more + 1) opened
      rw [List.replicate_succ'] at grown
      simpa using grown
  | failed head frames more opened =>
      have grown := Account.failed head frames (more + 1) opened
      rw [List.replicate_succ'] at grown
      simpa using grown

end Account

-- Where the write under way stands, with the number of writes whose content was pulled.
inductive Standing (c : Channel) (n count : Nat) : Option (Writing × Phase) → Prop where
  | idle (empty : c.slot = .empty) : Standing c n count none
  | offered (w : Writing) (data : Bytes) (content : w.tidy.2 = some data) (open_ : c.ended = false)
      (slot : c.slot = .full (.chunk data)) (present : c.reader ≠ .gone) (all : n + 1 = count) :
      Standing c n count (some (w, .content w.1))
  | taken (w : Writing) (open_ : c.ended = false) (slot : c.slot = .taken) (all : n = count) :
      Standing c n count (some (w, .content w.1))
  | lost (w : Writing) (open_ : c.ended = false) (slot : c.slot = .lost) (gone : c.reader = .gone) :
      Standing c n count (some (w, .content w.1))
  | ending (w : Writing) (closing : c.ended = true) (slot : c.slot = .full .eof) (present : c.reader ≠ .gone)
      (all : n = count) : Standing c n count (some (w, .ending))
  | ended (w : Writing) (closing : c.ended = true) (slot : c.slot = .taken) (all : n = count) :
      Standing c n count (some (w, .ending))
  | cut (w : Writing) (closing : c.ended = true) (slot : c.slot = .lost) (gone : c.reader = .gone) :
      Standing c n count (some (w, .ending))
  | done (w : Writing) (result : Sent) (empty : c.slot = .empty)
      (all : result = .ok () → w.tidy.2 ≠ none → n = count) : Standing c n count (some (w, .done result))

structure Carried (x : Transfer) (n : Nat) : Prop where
  came (i : Nat) (w : Writing) : x.returned[i]? = some (w, .ok ()) → w.tidy.2 ≠ none → i < n
  standing : Standing x.channel n x.writings.length x.current
  level : x.channel.ended = false → x.channel.reader ≠ .gone → (∀ data, x.channel.slot ≠ .full (.chunk data)) →
    n = x.writings.length
  bound : n ≤ x.writings.length
  last : x.channel.ended = true → ∃ w ∈ x.writings, w.1 = true
  closing : x.channel.ended = false → x.channel.reader ≠ .gone → (∃ w ∈ x.writings, w.1 = true) →
    ∃ w, x.current = some (w, .content true)

structure Heard (x : Transfer) (frames : List Bytes) (ending : Option Sent) : Prop where
  account : Account x.opening x.told frames ending
  opened : x.opening = none ↔ x.writings = []
  announced : x.channel.announced = x.opening.isSome
  waiting : x.channel.reader = .waiting → x.told = [] ∧ x.channel.offered = x.opening
  reading (size : PayloadSize) (ended : Bool) : x.channel.reader = .reading size ended →
    x.told ≠ [] ∧ x.opening ≠ none ∧ ending.isSome = ended
  clean : ending = some (.ok ()) → x.channel.ended = true
  final : x.channel.ended = true → x.channel.reader ≠ .gone → ending = none → x.channel.slot = .full .eof
  broken (e : SendError) : ending = some (.error e) → x.channel.closed = true ∧ frames = contents x.writings ∧
    ((∃ w ∈ x.writings, w.1 = true) → ∃ w, x.current = some (w, .content true))

structure Sound (x : Transfer) (n : Nat) (frames : List Bytes) (ending : Option Sent) : Prop
    extends Carried x n, Heard x frames ending where
  pulled : frames = contents (x.writings.take n)

theorem new_sound (head : Head) : (new head).Sound 0 [] none where
  account := .silent
  pulled := rfl
  came i w present := by simp [new] at present
  standing := .idle rfl
  level _ _ _ := rfl
  bound := Nat.le_refl 0
  opened := by simp [new, writings]
  announced := rfl
  waiting _ := ⟨rfl, rfl⟩
  reading size ended reading := by simp [new, Channel.new] at reading
  clean := nofun
  broken e := nofun
  last := nofun
  final := nofun
  closing _ _ last := by simp [new, writings] at last

theorem standing_congr (c d : Channel) (n count : Nat) (current : Option (Writing × Phase)) (ended : d.ended = c.ended)
    (slot : d.slot = c.slot) (gone : d.reader = .gone ↔ c.reader = .gone) (standing : Standing c n count current) :
    Standing d n count current := by
  cases standing with
  | idle empty => exact .idle (slot.trans empty)
  | offered w data content open_ full present all =>
      exact .offered w data content (ended.trans open_) (slot.trans full) (mt gone.mp present) all
  | taken w open_ taken all => exact .taken w (ended.trans open_) (slot.trans taken) all
  | lost w open_ lost left => exact .lost w (ended.trans open_) (slot.trans lost) (gone.mpr left)
  | ending w closing full present all =>
      exact .ending w (ended.trans closing) (slot.trans full) (mt gone.mp present) all
  | ended w closing taken all => exact .ended w (ended.trans closing) (slot.trans taken) all
  | cut w closing lost left => exact .cut w (ended.trans closing) (slot.trans lost) (gone.mpr left)
  | done w result empty all => exact .done w result (slot.trans empty) all

end Transfer

end Gateway
