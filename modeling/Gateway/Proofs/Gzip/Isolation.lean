import Gateway.Gzip.Stage
import Gateway.Proofs.Gzip.Twins
import Gateway.Proofs.Sink.Logged

set_option autoImplicit false

namespace Gateway.Gzip

-- Responses that share two pools, each with its calls; none where a response was dropped.
structure Traffic (σ κ : Type) where
  shared : Resources κ
  responses : List (Option (Calls σ κ))

inductive Event (σ : Type) where
  | arrive (stage : Stage) (sink : σ) (tags : Option Text)
  | move (i : Nat) (m : Move)
  | drop (i : Nat)

variable {σ κ : Type}

def Calls.within (c : Calls σ κ) (r : Resources κ) : Calls σ κ :=
  { c with response := { c.response with resources := r } }

namespace Traffic

def opening (resources : Resources κ) : Traffic σ κ := ⟨resources, []⟩

def calls? (t : Traffic σ κ) (i : Nat) : Option (Calls σ κ) := (t.responses[i]?).join

variable [Sink σ] [Deflate.Compressor κ]

def step (t : Traffic σ κ) : Event σ → Traffic σ κ
  | .arrive stage sink tags => { t with responses := t.responses ++ [some (.new (stage.response sink t.shared tags))] }
  | .move i m =>
    match t.calls? i with
    | none => t
    | some c =>
      let c := (c.within t.shared).move m
      ⟨c.response.resources, t.responses.set i (some c)⟩
  | .drop i =>
    match t.calls? i with
    | none => t
    | some c => ⟨Stage.resourcesAfter (c.within t.shared).response, t.responses.set i none⟩

def run (t : Traffic σ κ) (events : List (Event σ)) : Traffic σ κ := events.foldl step t

end Traffic

def Event.move? (i : Nat) : Event σ → Option Move
  | .move j m => if j = i then some m else none
  | _ => none

theorem Event.move_of (i : Nat) (m : Move) (e : Event σ) (moved : e.move? i = some m) : e = .move i m := by
  cases e with
  | move j n =>
      by_cases mine : j = i
      · simp only [Event.move?, if_pos mine] at moved
        rw [mine, Option.some.inj moved]
      · simp [Event.move?, mine] at moved
  | _ => cases moved

def Event.Sized (bufferSize : Nat) : Event σ → Prop
  | .arrive stage _ _ => stage.bufferSize = bufferSize
  | _ => True

namespace Traffic

section Lookup

variable (t : Traffic σ κ) (r : Resources κ) (i j : Nat) (c d : Calls σ κ)

theorem calls_present (present : t.calls? i = some c) : i < t.responses.length := by
  unfold calls? at present
  cases here : t.responses[i]? with
  | none => simp [here] at present
  | some x => exact (List.getElem?_eq_some_iff.mp here).1

theorem calls_arrived :
    (⟨r, t.responses ++ [some c]⟩ : Traffic σ κ).calls? i =
      if i = t.responses.length then some c else t.calls? i := by
  unfold calls?
  dsimp only
  rcases Nat.lt_trichotomy i t.responses.length with before | rfl | after
  · rw [List.getElem?_append_left before, if_neg (Nat.ne_of_lt before)]
  · simp
  · rw [if_neg (Nat.ne_of_gt after), List.getElem?_eq_none (by simp; omega), List.getElem?_eq_none (by omega)]

theorem calls_set (x : Option (Calls σ κ)) (present : t.calls? i = some d) :
    (⟨r, t.responses.set i x⟩ : Traffic σ κ).calls? j = if j = i then x else t.calls? j := by
  have bound := calls_present t i d present
  unfold calls?
  dsimp only
  by_cases same : j = i
  · subst same
    simp [bound]
  · rw [if_neg same, List.getElem?_set_ne (Ne.symm same)]

theorem step_grows [Sink σ] [Deflate.Compressor κ] (e : Event σ) :
    t.responses.length ≤ (t.step e).responses.length := by
  cases e with
  | arrive stage sink tags => simp [step]
  | move i m | drop i =>
      rw [step]
      cases t.calls? i <;> simp

end Lookup

end Traffic

variable [Sink σ] [Deflate.Compressor κ] (k : Terms)

theorem State.decided_leads (s s' : State) (decided : s = .compressing ∨ s = .notCompressing) (path : Leads s s') :
    s' = s ∨ s' = .finished := by
  induction path with
  | refl => exact .inl rfl
  | tail _ next ih =>
      rcases ih with rfl | rfl
      · rcases decided with rfl | rfl <;> cases next <;> exact .inr rfl
      · cases next
        exact .inr rfl

namespace Calls

variable (c d : Calls σ κ)

omit [Sink σ] [Deflate.Compressor κ] in
theorem within_orderly (orderly : c.Orderly) (r : Resources κ) : (c.within r).Orderly where
  free := orderly.free
  held i taken := by
    obtain ⟨phase, present, holds⟩ := orderly.held i taken
    exact ⟨phase, present, Response.holds_congr c.response _ phase rfl rfl holds⟩
  others := orderly.others
  queued := orderly.queued
  apart := orderly.apart

omit [Sink σ] in
theorem twin_paired (twin : c.Twin k d) :
    c.response.session.Paired k c.response.resources d.response.session d.response.resources := by
  obtain ⟨response, -⟩ := twin
  generalize c.response = r at response
  generalize d.response = q at response
  obtain ⟨t, u, paired⟩ := response
  exact paired

omit [Sink σ] in
theorem within_twin (r : Resources κ) (session : c.response.session.Twin k c.response.session) (tidy : r.Tidy k) :
    (c.within r).Twin k (c.within r) :=
  ⟨.mk (c.within r).response c.response.session r ⟨session, tidy, tidy⟩, rfl⟩

omit [Sink σ] in
theorem twin_within (r r' : Resources κ) (twin : (c.within r).Twin k d) (tidy : r'.Tidy k) :
    (c.within r').Twin k d := by
  obtain ⟨response, phases⟩ := twin
  refine ⟨?_, phases⟩
  generalize d.response = q at response
  generalize same : (c.within r).response = x at response
  obtain ⟨t, u, paired⟩ := response
  subst same
  exact .mk (c.within r').response t u ⟨paired.twin, tidy, paired.right⟩

omit [Sink σ] in
theorem within_seen (r : Resources κ) (twin : (c.within r).Twin k d) :
    d.response.sink = c.response.sink ∧ d.phases = c.phases ∧ d.response.state = c.response.state := by
  obtain ⟨response, phases⟩ := twin
  generalize d.response = q at response
  generalize same : (c.within r).response = x at response
  obtain ⟨t, u, -⟩ := response
  subst same
  exact ⟨rfl, phases, rfl⟩

theorem move_lends (n : Nat) (m : Move) (lends : c.response.Lends n) : (c.move m).response.Lends n := by
  cases m with
  | begin call => exact Response.start_lends n c.response _ call lends
  | advance i =>
      simp only [move, advance]
      cases c.phases[i]? with
      | none => exact lends
      | some phase => exact Response.resume_lends n c.response i phase lends

omit [Deflate.Compressor κ] [Sink σ] in
theorem active_compressing (orderly : c.Orderly) (active : c.response.session.entry.isSome = true) :
    c.response.state = .compressing := by
  have settled (settled : c.response.Settled) : c.response.state = .compressing := by
    refine Decidable.byContradiction fun other => ?_
    simp [(Response.settled_empty c.response settled other).1] at active
  cases taken : c.response.holder with
  | none => exact settled (orderly.free taken).2
  | some i =>
      obtain ⟨phase, -, holds⟩ := orderly.held i taken
      cases phase with
      | waiting errand => exact settled holds.2.2
      | writing last content site =>
          cases site with
          | passing => exact settled holds.2
          | heading => exact holds.1
          | flushing w => cases last <;> exact holds.1
      | compressing w => exact holds.1
      | done result => exact holds.elim

omit [Deflate.Compressor κ] [Sink σ] in
theorem undecided_idle (orderly : c.Orderly) (state : c.response.state = .mightCompress) :
    c.response.session.entry = none := by
  cases taken : c.response.holder with
  | none => exact (Response.settled_empty c.response (orderly.free taken).2 (by simp [state])).1
  | some i => exact absurd state (holder_started c orderly i taken)

theorem decides_exhausted (m : Move) (deciding : c.decides m = true)
    (exhausted : c.response.resources.engines.acquire? = none) : (c.move m).response.state = .notCompressing := by
  have dispatched (r : Response σ κ) (me : Nat) (last : Bool) (content : Option Bytes)
      (undecided : r.isUndecided = true)
      (exhausted : r.resources.engines.acquire? = none) : (r.dispatch me last content).1.state = .notCompressing := by
    obtain ⟨state, free⟩ : r.state = .mightCompress ∧ r.holder = none := by simpa [Response.isUndecided] using undecided
    simp only [Response.dispatch, state]
    rw [Response.acquire_free ({ r with state := .committing } : Response σ κ) me _ free]
    exact Response.commit_exhausted _ last content exhausted
  cases m with
  | begin call =>
      cases call with
      | write last content => exact dispatched c.response _ last _ deciding exhausted
      | succeeded =>
          obtain ⟨completed, undecided⟩ : c.response.completed = false ∧ c.response.isUndecided = true := by
            simpa [decides] using deciding
          have passed := dispatched { c.response with completed := true } c.phases.length true none undecided exhausted
          simpa [move, begin, Response.start, completed] using passed
      | failed => simp [decides] at deciding
      | noCompression => simp [decides] at deciding
  | advance i =>
      simp only [decides] at deciding
      split at deciding
      · rename_i last content present
        have mine : c.response.holder = some i := by simpa using deciding
        have passed := Response.commit_exhausted c.response last content exhausted
        simpa [move, advance, present, Response.resume, mine, Response.run] using passed
      · contradiction

variable [Deflate.RenewableCompressor κ]

theorem move_follows (m : Move) (twin : c.Twin k d) (orderly : c.Orderly) (alone : d.response.Lends 0) :
    (c.move m).Twin k (d.move m) ∨ (c.move m).response.state = .notCompressing := by
  by_cases agrees : c.decides m = true → c.response.Agrees d.response
  · exact .inl (move_twin k c d twin m agrees)
  · obtain ⟨deciding, apart⟩ : c.decides m = true ∧ ¬ c.response.Agrees d.response := by simpa using agrees
    refine .inr (decides_exhausted c m deciding ?_)
    have paired := twin_paired k c d twin
    have entries := Session.twin_entries k _ _ paired.twin
    rw [undecided_idle c orderly (decides_first c m orderly deciding).1] at entries
    have all_in : d.response.resources.engines.checkedOut = 0 := by
      rw [Response.Lends, Session.Lent] at alone
      generalize d.response.session.entry = entry at entries alone
      cases entries
      exact alone
    cases given : c.response.resources.engines.acquire? with
    | none => rfl
    | some choice =>
        obtain ⟨left, -, -⟩ := (Deflate.Pool.acquire_iff _ choice.2 choice.1).mp given
        refine absurd ?_ apart
        rw [Response.Agrees, given, Deflate.Pool.acquire?, if_pos]
        · rfl
        · rw [all_in, paired.right.engines.capacity, ← paired.left.engines.capacity]
          omega

end Calls

namespace Traffic

structure Fits (c : Calls σ κ) : Prop where
  session : c.response.session.Twin k c.response.session
  orderly : c.Orderly

structure Tidy (t : Traffic σ κ) : Prop where
  shared : t.shared.Tidy k
  fits (i : Nat) (c : Calls σ κ) : t.calls? i = some c → Fits k c

variable (t : Traffic σ κ) (e : Event σ)

omit [Sink σ] in
theorem opening_tidy (maxIdle : Nat) : (opening (k.fresh maxIdle) : Traffic σ κ).Tidy k :=
  ⟨fresh_tidy k maxIdle, fun i c present => by simp [opening, calls?] at present⟩

omit [Sink σ] in
theorem arrived_twin (stage : Stage) (sink : σ) (r q : Resources κ) (tags : Option Text)
    (sized : stage.bufferSize = k.bufferSize)
    (left : r.Tidy k) (right : q.Tidy k) :
    (Calls.new (stage.response sink r tags)).Twin k (Calls.new (stage.response sink q tags)) := by
  have begun : (Session.new stage.bufferSize stage.syncFlush : Session κ).Twin k
      (.new stage.bufferSize stage.syncFlush) := by
    rw [sized]
    exact Session.new_twin k stage.syncFlush
  exact ⟨.mk (stage.response sink r tags) _ q ⟨begun, left, right⟩, rfl⟩

omit [Sink σ] in
theorem arrived_fits (stage : Stage) (sink : σ) (r : Resources κ) (tags : Option Text)
    (sized : stage.bufferSize = k.bufferSize)
    (tidy : r.Tidy k) : Fits k (Calls.new (stage.response sink r tags)) where
  session := (Calls.twin_paired k _ _ (arrived_twin k stage sink r r tags sized tidy tidy)).twin
  orderly := Calls.new_orderly _ ⟨rfl, rfl, rfl, rfl, rfl, rfl⟩

variable [Deflate.RenewableCompressor κ]

theorem move_fits (c : Calls σ κ) (m : Move) (r : Resources κ) (fits : Fits k c) (tidy : r.Tidy k) :
    Fits k ((c.within r).move m) ∧ ((c.within r).move m).response.resources.Tidy k := by
  have moved := Calls.move_twin k _ _ (Calls.within_twin k c r fits.session tidy) m fun _ => rfl
  have paired := Calls.twin_paired k _ _ moved
  exact ⟨⟨paired.twin, (Calls.move_advances _ m (Calls.within_orderly c fits.orderly r)).orderly⟩, paired.left⟩

theorem step_tidy (tidy : t.Tidy k) (sized : e.Sized k.bufferSize) : (t.step e).Tidy k := by
  cases e with
  | arrive stage sink tags =>
      refine ⟨tidy.shared, fun i c present => ?_⟩
      rw [step, calls_arrived] at present
      split at present
      · obtain rfl := Option.some.inj present
        exact arrived_fits k stage sink t.shared tags sized tidy.shared
      · exact tidy.fits i c present
  | move i m =>
      rw [step]
      cases found : t.calls? i with
      | none => exact tidy
      | some c =>
          obtain ⟨fits, shared⟩ := move_fits k c m t.shared (tidy.fits i c found) tidy.shared
          refine ⟨shared, fun j d present => ?_⟩
          rw [calls_set t _ i j c _ found] at present
          split at present
          · obtain rfl := Option.some.inj present
            exact fits
          · exact tidy.fits j d present
  | drop i =>
      rw [step]
      cases found : t.calls? i with
      | none => exact tidy
      | some c =>
          have released := Session.release_entry_paired k _ _ t.shared t.shared
            ⟨(tidy.fits i c found).session, tidy.shared, tidy.shared⟩
          refine ⟨released.left, fun j d present => ?_⟩
          rw [calls_set t _ i j c _ found] at present
          split at present
          · cases present
          · exact tidy.fits j d present

theorem run_tidy (events : List (Event σ)) (tidy : t.Tidy k) (sized : ∀ e ∈ events, e.Sized k.bufferSize) :
    (t.run events).Tidy k := by
  induction events generalizing t with
  | nil => exact tidy
  | cons e rest ih =>
      exact ih (t.step e) (step_tidy k t e tidy (sized e List.mem_cons_self)) fun f later =>
        sized f (List.mem_cons_of_mem e later)

-- Since its state was `s` a response goes with one that has the pools to itself, or it was refused a
-- compressor.
structure Follows (t : Traffic σ κ) (i : Nat) (s : State) (d : Calls σ κ) : Prop where
  alone : d.response.Lends 0
  goes (c : Calls σ κ) : t.calls? i = some c → s.Leads c.response.state ∧
    ((c.within t.shared).Twin k d ∨ (s.Leads .notCompressing ∧ State.Leads .notCompressing c.response.state))

theorem others_follow (i : Nat) (s : State) (d : Calls σ κ) (tidy : t.Tidy k) (sized : e.Sized k.bufferSize)
    (here : i < t.responses.length) (other : e.move? i = none) (follows : Follows k t i s d) :
    Follows k (t.step e) i s d := by
  have next := (step_tidy k t e tidy sized).shared
  refine ⟨follows.alone, fun c present => ?_⟩
  suffices kept : t.calls? i = some c by
    obtain ⟨path, goes⟩ := follows.goes c kept
    exact ⟨path, goes.imp_left fun twin => Calls.twin_within k c d t.shared _ twin next⟩
  cases e with
  | arrive stage sink tags => rwa [step, calls_arrived, if_neg (Nat.ne_of_lt here)] at present
  | move j m =>
      have apart : ¬ i = j := fun same => by simp [Event.move?, same] at other
      rw [step] at present
      cases found : t.calls? j with
      | none => rwa [found] at present
      | some c =>
          rw [found] at present
          rwa [calls_set t _ j i c _ found, if_neg apart] at present
  | drop j =>
      rw [step] at present
      cases found : t.calls? j with
      | none => rwa [found] at present
      | some c =>
          rw [found] at present
          rw [calls_set t _ j i c _ found] at present
          split at present
          · cases present
          · exact present

theorem move_follows (i : Nat) (m : Move) (s : State) (d : Calls σ κ) (tidy : t.Tidy k) (follows : Follows k t i s d) :
    Follows k (t.step (.move i m)) i s (d.move m) := by
  refine ⟨Calls.move_lends d 0 m follows.alone, fun c present => ?_⟩
  rw [step] at present ⊢
  cases found : t.calls? i with
  | none =>
      rw [found] at present
      cases found.symm.trans present
  | some b =>
      rw [found] at present
      obtain rfl : (b.within t.shared).move m = c := by
        simpa [calls_set t _ i i b _ found] using present
      have orderly := Calls.within_orderly b (tidy.fits i b found).orderly t.shared
      have onward := (Calls.move_advances _ m orderly).path
      obtain ⟨path, goes⟩ := follows.goes b found
      have path : s.Leads ((b.within t.shared).move m).response.state := path.trans onward
      refine ⟨path, ?_⟩
      rcases goes with twin | ⟨refused, after⟩
      · rcases Calls.move_follows k _ d m twin orderly follows.alone with twin | refused
        · exact .inl twin
        · exact .inr ⟨refused ▸ path, refused ▸ .refl⟩
      · exact .inr ⟨refused, after.trans onward⟩

theorem run_follows (events : List (Event σ)) (i : Nat) (s : State) (d : Calls σ κ) (tidy : t.Tidy k)
    (sized : ∀ e ∈ events, e.Sized k.bufferSize) (here : i < t.responses.length) (follows : Follows k t i s d) :
    Follows k (t.run events) i s (d.play (events.filterMap (·.move? i))) := by
  induction events generalizing t d with
  | nil => exact follows
  | cons e rest ih =>
      have later (f : Event σ) (member : f ∈ rest) : f.Sized k.bufferSize := sized f (List.mem_cons_of_mem e member)
      have next := step_tidy k t e tidy (sized e List.mem_cons_self)
      have grown : i < (t.step e).responses.length := Nat.lt_of_lt_of_le here (step_grows t e)
      cases moved : e.move? i with
      | none =>
          rw [List.filterMap_cons_none moved]
          exact ih (t.step e) d next later grown
            (others_follow k t e i s d tidy (sized e List.mem_cons_self) here moved follows)
      | some m =>
          rw [List.filterMap_cons_some moved]
          obtain rfl := Event.move_of i m e moved
          exact ih _ (d.move m) next later grown (move_follows k t i m s d tidy follows)

omit [Deflate.RenewableCompressor κ] in
theorem arrival_follows (stage : Stage) (sink : σ) (tags : Option Text) (maxIdle : Nat) (tidy : t.Tidy k)
    (sized : stage.bufferSize = k.bufferSize) :
    Follows k (t.step (.arrive stage sink tags)) t.responses.length .mightCompress
      (Calls.new (stage.response sink (k.fresh maxIdle) tags)) := by
  refine ⟨rfl, fun c present => ?_⟩
  rw [step, calls_arrived, if_pos rfl] at present
  obtain rfl := Option.some.inj present
  exact ⟨.refl, .inl (arrived_twin k stage sink t.shared _ tags sized tidy.shared (fresh_tidy k maxIdle))⟩

omit [Sink σ] [Deflate.RenewableCompressor κ] in
theorem served_follows (i : Nat) (s : State) (c d : Calls σ κ) (tidy : t.Tidy k) (follows : Follows k t i s d)
    (present : t.calls? i = some c) (active : c.response.session.isActive = true) : Follows k t i .compressing d := by
  have state := c.active_compressing (tidy.fits i c present).orderly active
  refine ⟨follows.alone, fun b same => ?_⟩
  obtain rfl : c = b := Option.some.inj (present.symm.trans same)
  refine ⟨state ▸ .refl, .inl ?_⟩
  rcases (follows.goes c present).2 with twin | ⟨-, refused⟩
  · exact twin
  · rcases State.decided_leads _ _ (.inr rfl) refused with same | same <;> simp [state] at same

-- A response that is given a compressor, at any time in any history of responses with the same pools,
-- goes on as if the pools were new: what it sends, what its calls come to and its state are the same.
theorem isolated (maxIdle : Nat) (earlier later rest : List (Event (Logged σ))) (stage : Stage) (sink : Logged σ)
    (tags : Option Text) (c d : Calls (Logged σ) κ)
    (sized : ∀ e ∈ earlier ++ .arrive stage sink tags :: (later ++ rest), e.Sized k.bufferSize) :
    let before := (opening (k.fresh maxIdle) : Traffic (Logged σ) κ).run earlier
    let i := before.responses.length
    let during := before.run (.arrive stage sink tags :: later)
    let alone : Calls (Logged σ) κ :=
      (Calls.new (stage.response sink (k.fresh maxIdle) tags)).play ((later ++ rest).filterMap (·.move? i))
    during.calls? i = some c → c.response.session.isActive = true → (during.run rest).calls? i = some d →
    d.response.sink.log = alone.response.sink.log ∧ d.phases = alone.phases ∧
      d.response.state = alone.response.state := by
  intro before i during alone given active present
  simp only [List.forall_mem_append, List.forall_mem_cons] at sized
  obtain ⟨sized_before, sized_arrival, sized_later, sized_rest⟩ := sized
  have tidy : before.Tidy k := run_tidy k _ earlier (opening_tidy k maxIdle) sized_before
  have tidy_arrived := step_tidy k before (.arrive stage sink tags) tidy sized_arrival
  have tidy_during : during.Tidy k := run_tidy k _ later tidy_arrived sized_later
  have arrived := arrival_follows k before stage sink tags maxIdle tidy sized_arrival
  have counted : i < (before.step (.arrive stage sink tags)).responses.length := by simp [step, i]
  have follows := run_follows k _ later i .mightCompress _ tidy_arrived sized_later counted arrived
  have served := served_follows k during i _ c _ tidy_during follows given active
  have ends := run_follows k during rest i .compressing _ tidy_during sized_rest (calls_present during i c given) served
  obtain ⟨-, twin | ⟨refused, -⟩⟩ := ends.goes d present
  · obtain ⟨sink, phases, state⟩ := Calls.within_seen k d _ _ twin
    have whole : alone.response.sink = d.response.sink ∧ alone.phases = d.phases ∧
        alone.response.state = d.response.state := by
      simp only [alone, Calls.play, List.filterMap_append, List.foldl_append]
      exact ⟨sink, phases, state⟩
    exact ⟨congrArg Logged.log whole.1.symm, whole.2.1.symm, whole.2.2.symm⟩
  · rcases State.decided_leads _ _ (.inl rfl) refused with same | same <;> cases same

def modest : Terms := ⟨2, 6, 64⟩

def eager : Stage := ⟨⟨[], 0⟩, [], [], none, modest.bufferSize, true⟩

def onto (failing : Bool) : Logged Recorder := ⟨{ Recorder.new .empty with failing }, []⟩

def troubles : List (Event (Logged Recorder)) :=
  [.arrive eager (onto false) none, .move 0 (.begin (.write false (some [104, 105]))), .move 0 (.advance 0), .drop 0,
    .arrive eager (onto true) none, .move 1 (.begin (.write false (some [104]))),
    .move 1 (.advance 0), .move 1 (.advance 0)]

def greeting : List (Event (Logged Recorder)) := [.move 2 (.begin (.write true (some [104, 105, 106])))]

def farewell : List (Event (Logged Recorder)) := List.replicate 6 (.move 2 (.advance 0))

theorem isolated_after_troubles :
    let before := (opening (modest.fresh 64) : Traffic (Logged Recorder) Deflate.Encoder).run troubles
    let alone : Calls (Logged Recorder) Deflate.Encoder :=
      (Calls.new (eager.response (onto false) (modest.fresh 64) none)).play
        ((greeting ++ farewell).filterMap (·.move? before.responses.length))
    before.shared.engines.idle.length = 1 ∧ before.shared.buffers.idle = 1 ∧
    ∃ d, ((before.run (.arrive eager (onto false) none :: greeting)).run farewell).calls?
      before.responses.length = some d ∧
      d.response.sink.log.length = 2 ∧ d.response.sink.log = alone.response.sink.log ∧
        d.response.state = .finished := by
  intro before alone
  have sized : ∀ e ∈ troubles ++ .arrive eager (onto false) none :: (greeting ++ farewell),
      e.Sized modest.bufferSize := by
    simp [troubles, greeting, farewell, Event.Sized, eager]
  have served : ((before.run (.arrive eager (onto false) none :: greeting)).calls? before.responses.length).any
      (·.response.session.isActive) = true := by decide +kernel
  have ended :
      (((before.run (.arrive eager (onto false) none :: greeting)).run farewell).calls?
        before.responses.length).any
      (fun d => d.response.sink.log.length = 2 ∧ d.response.state = .finished) = true := by decide +kernel
  obtain ⟨c, given, active⟩ := (Option.any_eq_true _ _).mp served
  obtain ⟨d, present, facts⟩ := (Option.any_eq_true _ _).mp ended
  obtain ⟨length, state⟩ := of_decide_eq_true facts
  have same := isolated modest 64 troubles greeting farewell eager (onto false) none c d sized given active present
  exact ⟨by decide +kernel, by decide +kernel, d, present, length, same.1, state⟩

end Traffic

end Gateway.Gzip
