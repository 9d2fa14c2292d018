import Gateway.Proofs.Gzip.Course
import Gateway.Proofs.Gzip.Passage

set_option autoImplicit false

namespace Gateway.Gzip

variable {σ κ : Type}

def Phase.isOk : Phase → Bool
  | .done (.ok ()) => true
  | _ => false

def accepted : List Call → List Phase → List Call
  | call :: calls, phase :: phases =>
      if phase.isOk then call :: accepted calls phases else accepted calls phases
  | _, _ => []

theorem accepted_append (calls more : List Call) (phases rest : List Phase) (length : calls.length = phases.length) :
    accepted (calls ++ more) (phases ++ rest) = accepted calls phases ++ accepted more rest := by
  induction calls generalizing phases with
  | nil =>
      obtain rfl : phases = [] := by simpa using length.symm
      rfl
  | cons call calls ih =>
      cases phases with
      | nil => simp at length
      | cons phase phases =>
          simp only [List.cons_append, accepted, ih phases (by simpa using length)]
          split <;> rfl

theorem accepted_none (calls : List Call) (phases : List Phase) (refused : ∀ phase ∈ phases, phase.isOk = false) :
    accepted calls phases = [] := by
  induction phases generalizing calls with
  | nil => cases calls <;> rfl
  | cons phase phases ih =>
      cases calls with
      | nil => rfl
      | cons call calls =>
          simp only [accepted, refused phase List.mem_cons_self]
          exact ih calls fun phase member => refused phase (List.mem_cons_of_mem _ member)

section Performing

variable [Sink σ] [Deflate.Compressor κ]

def Response.Performs (r : Response σ κ) (calls : List Call) (q : Response σ κ) : Prop :=
  (r.perform calls).1 = q ∧ ∀ result ∈ (r.perform calls).2, result = .ok ()

theorem Response.performs_one_more (r q p : Response σ κ) (calls : List Call) (call : Call)
    (performs : r.Performs calls q) (one : q.call call = (p, .ok ())) : r.Performs (calls ++ [call]) p := by
  obtain ⟨same, fine⟩ := performs
  induction calls generalizing r with
  | nil =>
      obtain rfl : r = q := same
      simp [Performs, perform, one]
  | cons first rest ih =>
      simp only [perform, List.mem_cons, forall_eq_or_imp] at same fine
      obtain ⟨same', fine'⟩ := ih _ same fine.2
      simp only [Performs, List.cons_append, perform, List.mem_cons, forall_eq_or_imp]
      exact ⟨same', fine.1, fine'⟩

end Performing

namespace Move

def IsWrite : Move → Prop
  | .begin (.write _ _) => True
  | .begin _ => False
  | .advance _ => True

def IsOf (count i : Nat) : Move → Prop
  | .begin _ => i = count
  | .advance j => j = i

def begun : Move → List Call
  | .begin call => [call]
  | .advance _ => []

end Move

namespace Calls

section Writing

variable [Sink σ] [Deflate.Compressor κ]

-- Where the calls that began stand against the accepted ones performed in turn. While one of them is
-- under way it continues what the earlier ones led to, and all that began after it were refused.
inductive Linear (sound : σ → Prop) (r : Response σ κ) : Calls σ κ → List Call → Prop where
  | idle (q : Response σ κ) (phases : List Phase) (calls : List Call) (length : calls.length = phases.length)
      (free : q.holder = none) (here : q.IsOpen sound) (ended : ∀ phase ∈ phases, phase.IsDone)
      (whole : r.Performs (accepted calls phases) q) : Linear sound r ⟨q, phases⟩ calls
  | busy (q start : Response σ κ) (front back : List Phase) (phase : Phase) (before after : List Call) (call : Call)
      (length : before.length = front.length) (length' : after.length = back.length)
      (taken : q.holder = some front.length) (here : sound q.sink) (sails : phase.Sails)
      (ended : ∀ phase ∈ front ++ back, phase.IsDone) (refused : ∀ phase ∈ back, phase.isOk = false)
      (whole : r.Performs (accepted before front) start)
      (runs : Response.settle 0 (start.start 0 call).1 (start.start 0 call).2 =
        Response.settle 0 (q.relabel fun _ => 0) phase) :
      Linear sound r ⟨q, front ++ phase :: back⟩ (before ++ call :: after)

variable (sound : σ → Prop) (reliable : Sink.Reliable sound) (faultless : Faultless κ) (r : Response σ κ)

theorem new_linear (fresh : r.IsFresh) (here : sound r.sink) : Linear sound r (new r) [] :=
  .idle r [] [] rfl fresh.holder (.inr here) nofun ⟨rfl, nofun⟩

omit [Sink σ] [Deflate.Compressor κ] in
theorem none_waits (c : Calls σ κ) (orderly : c.Orderly) (going : ∀ phase ∈ c.phases, phase.IsDone ∨ phase.Sails) :
    c.response.queue = [] := by
  refine List.eq_nil_iff_forall_not_mem.mpr fun i queued => ?_
  have waits := List.mem_of_getElem? (orderly.queued i queued)
  rcases going _ waits with ended | sails
  · exact ended
  · exact sails

theorem begin_refused (c : Calls σ κ) (i : Nat) (phase : Phase) (last : Bool)
    (content : Option Bytes) (orderly : c.Orderly)
    (taken : c.response.holder = some i) (present : c.phases[i]? = some phase) (sails : phase.Sails) :
    c.begin (.write last content) = ⟨c.response, c.phases ++ [.done (.error .writePending)]⟩ := by
  obtain ⟨held, same, holds⟩ := orderly.held i taken
  obtain rfl : phase = held := by simpa [present] using same
  rw [begin, Response.write_refused c.response c.phases.length i last content phase taken holds sails]

include reliable

theorem begin_free (q : Response σ κ) (phases : List Phase) (calls : List Call) (last : Bool) (content : Option Bytes)
    (orderly : (⟨q, phases⟩ : Calls σ κ).Orderly) (length : calls.length = phases.length) (free : q.holder = none)
    (here : q.IsOpen sound) (ended : ∀ phase ∈ phases, phase.IsDone) (whole : r.Performs (accepted calls phases) q) :
    Linear sound r ((⟨q, phases⟩ : Calls σ κ).begin (.write last content)) (calls ++ [.write last content]) := by
  obtain ⟨quiet, settled⟩ := orderly.free free
  have numbered := Response.write_relabel (fun _ => 0) q phases.length last content
  rw [Response.relabel_free _ q free quiet] at numbered
  rcases Response.write_sails sound reliable q phases.length last content settled free here with
    ⟨sails, here'⟩ | ⟨result, finished⟩
  · have taken : (q.start phases.length (.write last content)).1.holder = some phases.length := by
      have enters := Response.start_enters q phases.length (.write last content) settled free quiet
      rcases enters.result with ⟨⟨result, done⟩, -⟩ | ⟨-, taken⟩
      · rw [done] at sails
        exact sails.elim
      · exact taken
    refine .busy _ q phases [] _ calls [] (.write last content) length rfl taken here' sails
      (by simpa using ended) nofun
      whole ?_
    rw [numbered]
    rfl
  · have alone : q.start 0 (.write last content) = (q, .done result) := by
      rw [numbered, finished, Response.relabeled, Response.relabel_free _ q free quiet]
    have same : (⟨q, phases⟩ : Calls σ κ).begin (.write last content) = ⟨q, phases ++ [.done result]⟩ := by
      simp only [begin, finished]
    rw [same]
    refine .idle q _ _ (by simp [length]) free here ?_ ?_
    · intro phase member
      rcases List.mem_append.mp member with old | new
      · exact ended phase old
      · obtain rfl := List.mem_singleton.mp new
        trivial
    · rw [accepted_append calls _ phases _ length]
      cases result with
      | error e => simpa [accepted, Phase.isOk] using whole
      | ok done =>
          refine Response.performs_one_more r q q _ _ whole (Response.call_settled q _ q (.ok ()) ?_)
          rw [alone]
          exact Response.settle_done 0 q _

theorem begin_linear (c : Calls σ κ) (calls : List Call) (last : Bool) (content : Option Bytes) (orderly : c.Orderly)
    (linear : Linear sound r c calls) :
    Linear sound r (c.begin (.write last content)) (calls ++ [.write last content]) := by
  cases linear with
  | idle q phases _ length free here ended whole =>
      exact begin_free sound reliable r q phases calls last content orderly length free here ended whole
  | busy q start front back phase before after call length length' taken here sails ended refused whole runs =>
      have same :=
        begin_refused ⟨q, front ++ phase :: back⟩ front.length phase last content orderly taken (by simp) sails
      rw [same, List.append_assoc, List.cons_append, List.append_assoc, List.cons_append]
      refine .busy q start front _ phase before _ call length (by simp [length']) taken here sails ?_ ?_ whole runs
      · intro one member
        rw [← List.append_assoc] at member
        rcases List.mem_append.mp member with old | new
        · exact ended one old
        · obtain rfl := List.mem_singleton.mp new
          trivial
      · intro one member
        rcases List.mem_append.mp member with old | new
        · exact refused one old
        · obtain rfl := List.mem_singleton.mp new
          rfl

include faultless

theorem resume_linear (q start : Response σ κ) (front back : List Phase) (phase : Phase) (before after : List Call)
    (call : Call) (length : before.length = front.length) (length' : after.length = back.length)
    (taken : q.holder = some front.length) (quiet : q.queue = []) (holds : q.Holds phase) (here : sound q.sink)
    (sails : phase.Sails) (ended : ∀ phase ∈ front ++ back, phase.IsDone)
    (refused : ∀ phase ∈ back, phase.isOk = false) (whole : r.Performs (accepted before front) start)
    (runs : Response.settle 0 (start.start 0 call).1 (start.start 0 call).2 =
      Response.settle 0 (q.relabel fun _ => 0) phase) :
    Linear sound r ⟨(q.resume front.length phase).1, front ++ (q.resume front.length phase).2 :: back⟩
      (before ++ call :: after) := by
  have step := (Response.resume_proceeds q front.length phase holds taken).result
  have active := phase.sails_active sails
  rw [Response.settle_active 0 _ phase active, Response.resume_relabel (fun _ => 0) q front.length phase active] at runs
  rcases Response.resume_sails sound reliable faultless q front.length phase sails here with
    ⟨sails', here'⟩ | ⟨done, here'⟩
  · have taken' : (q.resume front.length phase).1.holder = some front.length := by
      rcases step with ⟨⟨result, finished⟩, -⟩ | ⟨-, kept, -⟩
      · rw [finished] at sails'
        exact sails'.elim
      · exact kept.trans taken
    exact .busy _ start front back _ before after call length length' taken' here' sails' ended refused whole runs
  · obtain ⟨free, empty⟩ : (q.resume front.length phase).1.holder = none ∧
        (q.resume front.length phase).1.queue = [] := by
      rcases step with ⟨-, -, -, free, rest⟩ | ⟨holds', -⟩
      · rw [quiet] at free rest
        exact ⟨free, rest⟩
      · rw [done] at holds'
        exact holds'.elim
    have finished : start.call call = ((q.resume front.length phase).1, .ok ()) := by
      refine Response.call_settled start call _ (.ok ()) (runs.trans ?_)
      simp only [Response.relabeled, done]
      rw [Response.settle_done, Response.relabel_free _ _ free empty]
    rw [done]
    refine .idle _ _ _ (by simp [length, length']) free here' ?_ ?_
    · intro one member
      rcases List.mem_append.mp member with old | later
      · exact ended one (List.mem_append_left _ old)
      · rcases List.mem_cons.mp later with rfl | after
        · trivial
        · exact ended one (List.mem_append_right _ after)
    · have listed : accepted (call :: after) (.done (.ok ()) :: back) = [call] := by
        rw [accepted, accepted_none after back refused]
        rfl
      rw [accepted_append before _ front _ length, listed]
      exact Response.performs_one_more r start _ _ call whole finished

theorem advance_linear (c : Calls σ κ) (calls : List Call) (i : Nat) (orderly : c.Orderly)
    (linear : Linear sound r c calls) : Linear sound r (c.advance i) calls := by
  by_cases mine : c.response.holder = some i
  · cases linear with
    | idle q phases _ length free here ended whole => simp [free] at mine
    | busy q start front back phase before after call length length' taken here sails ended refused whole runs =>
        obtain rfl : front.length = i := by simpa [taken] using mine
        obtain ⟨held, present, holds⟩ := orderly.held front.length taken
        obtain rfl : phase = held := by simpa using present
        have quiet : q.queue = [] := by
          refine none_waits _ orderly fun one member => ?_
          rcases List.mem_append.mp member with before | later
          · exact .inl (ended one (List.mem_append_left _ before))
          · rcases List.mem_cons.mp later with rfl | after
            · exact .inr sails
            · exact .inl (ended one (List.mem_append_right _ after))
        have same : (⟨q, front ++ phase :: back⟩ : Calls σ κ).advance front.length =
            ⟨(q.resume front.length phase).1, front ++ (q.resume front.length phase).2 :: back⟩ := by
          simp [advance]
        rw [same]
        exact resume_linear sound reliable faultless r q start front back phase before after call
          length length' taken quiet
          holds here sails ended refused whole runs
  · rw [unchanged_by_idle c orderly i mine]
    exact linear

omit reliable faultless

theorem linear_sails (c : Calls σ κ) (calls : List Call) (i : Nat) (phase : Phase) (linear : Linear sound r c calls)
    (present : c.phases[i]? = some phase) (sails : phase.Sails) :
    c.response.holder = some i ∧ sound c.response.sink := by
  have moving := phase.sails_undone sails
  cases linear with
  | idle q phases _ length free here ended whole => exact (moving (ended phase (List.mem_of_getElem? present))).elim
  | busy q start front back one before after call length length' taken here sails' ended refused whole runs =>
      rcases Nat.lt_trichotomy i front.length with earlier | rfl | later
      · rw [List.getElem?_append_left earlier] at present
        exact (moving (ended phase (List.mem_append_left _ (List.mem_of_getElem? present)))).elim
      · exact ⟨taken, here⟩
      · rw [List.getElem?_append_right (by omega), show i - front.length = (i - front.length - 1) + 1 by omega,
          List.getElem?_cons_succ] at present
        exact (moving (ended phase (List.mem_append_right _ (List.mem_of_getElem? present)))).elim

theorem linear_phases (c : Calls σ κ) (calls : List Call) (i : Nat) (phase : Phase) (linear : Linear sound r c calls)
    (present : c.phases[i]? = some phase) : phase.IsDone ∨ phase.Sails := by
  cases linear with
  | idle q phases _ length free here ended whole => exact .inl (ended phase (List.mem_of_getElem? present))
  | busy q start front back one before after call length length' taken here sails ended refused whole runs =>
      rcases List.mem_append.mp (List.mem_of_getElem? present) with earlier | rest
      · exact .inl (ended phase (List.mem_append_left _ earlier))
      · rcases List.mem_cons.mp rest with rfl | later
        · exact .inr sails
        · exact .inl (ended phase (List.mem_append_right _ later))

theorem linear_quiet (c : Calls σ κ) (calls : List Call) (linear : Linear sound r c calls) (quiet : c.IsQuiet) :
    r.Performs (accepted calls c.phases) c.response := by
  cases linear with
  | idle q phases _ length free here ended whole => exact whole
  | busy q start front back phase before after call length length' taken here sails ended refused whole runs =>
      exact (phase.sails_undone sails (quiet phase (by simp))).elim

theorem linear_busy (c : Calls σ κ) (calls : List Call) (last : Bool) (content : Option Bytes) (orderly : c.Orderly)
    (linear : Linear sound r c calls) (busy : ¬ c.IsQuiet) :
    c.begin (.write last content) = ⟨c.response, c.phases ++ [.done (.error .writePending)]⟩ := by
  cases linear with
  | idle q phases _ length free here ended whole => exact (busy ended).elim
  | busy q start front back phase before after call length length' taken here sails ended refused whole runs =>
      exact begin_refused _ front.length phase last content orderly taken (by simp) sails

include reliable faultless

theorem move_prospers (c : Calls σ κ) (calls : List Call) (m : Move) (i : Nat) (phase : Phase)
    (linear : Linear sound r c calls) (present : c.phases[i]? = some phase) (prospers : phase.Prospers) :
    ∃ next, (c.move m).phases[i]? = some next ∧ next.Prospers := by
  obtain ⟨bound, -⟩ := List.getElem?_eq_some_iff.mp present
  cases m with
  | begin call => exact ⟨phase, by simpa only [move, begin, List.getElem?_append_left bound] using present, prospers⟩
  | advance j =>
      by_cases same : j = i
      · subst same
        have moved : (c.move (.advance j)).phases[j]? = some (c.response.resume j phase).2 := by
          simp only [move, advance, present, List.getElem?_set_self bound]
        refine ⟨_, moved, ?_⟩
        rcases phase.prospers_cases prospers with rfl | sails
        · trivial
        · obtain ⟨-, here⟩ := linear_sails sound r c calls j phase linear present sails
          rcases Response.resume_sails sound reliable faultless c.response j phase sails
            here with ⟨sails', -⟩ | ⟨done, -⟩
          · exact Phase.sails_prosper _ sails'
          · rw [done]
            trivial
      · refine ⟨phase, ?_, prospers⟩
        simp only [move, advance]
        split
        · exact present
        · simpa only [List.getElem?_set_ne same] using present

theorem move_linear (c : Calls σ κ) (calls : List Call) (m : Move) (orderly : c.Orderly)
    (linear : Linear sound r c calls)
    (writes : m.IsWrite) : Linear sound r (c.move m) (calls ++ m.begun) := by
  cases m with
  | begin call =>
      cases call with
      | write last content => exact begin_linear sound reliable r c calls last content orderly linear
      | _ => exact writes.elim
  | advance i =>
      rw [Move.begun, List.append_nil]
      exact advance_linear sound reliable faultless r c calls i orderly linear

theorem play_linear (c : Calls σ κ) (calls : List Call) (moves : List Move) (orderly : c.Orderly)
    (linear : Linear sound r c calls) (writes : ∀ m ∈ moves, m.IsWrite) :
    Linear sound r (c.play moves) (calls ++ moves.flatMap Move.begun) := by
  induction moves generalizing c calls with
  | nil => simpa [play] using linear
  | cons m rest ih =>
      have first := move_linear sound reliable faultless r c calls m orderly linear (writes m List.mem_cons_self)
      have later := ih (c.move m) _ (move_advances c m orderly).orderly first
        fun m member => writes m (List.mem_cons_of_mem _ member)
      rw [List.flatMap_cons, ← List.append_assoc]
      exact later

theorem play_prospers (c : Calls σ κ) (calls : List Call) (moves : List Move) (i : Nat)
    (phase : Phase) (orderly : c.Orderly)
    (linear : Linear sound r c calls) (writes : ∀ m ∈ moves, m.IsWrite) (present : c.phases[i]? = some phase)
    (prospers : phase.Prospers) : ∃ next, (c.play moves).phases[i]? = some next ∧ next.Prospers := by
  induction moves generalizing c calls phase with
  | nil => exact ⟨phase, present, prospers⟩
  | cons m rest ih =>
      have write := writes m List.mem_cons_self
      obtain ⟨next, there, prospers'⟩ :=
        move_prospers sound reliable faultless r c calls m i phase linear present prospers
      exact ih (c.move m) _ next (move_advances c m orderly).orderly
        (move_linear sound reliable faultless r c calls m orderly linear write)
        (fun m member => writes m (List.mem_cons_of_mem _ member)) there prospers'

theorem move_unmoved (c : Calls σ κ) (calls : List Call) (m : Move) (i : Nat) (orderly : c.Orderly)
    (linear : Linear sound r c calls) (write : m.IsWrite) (own : m.IsOf c.phases.length i) :
    (c.move m).response = c.response ∨ ∃ phase, (c.move m).phases[i]? = some phase ∧ phase.Prospers := by
  cases m with
  | begin call =>
      obtain rfl : i = c.phases.length := own
      cases call with
      | write last content =>
          cases linear with
          | idle q phases _ length free here ended whole =>
              rcases Response.write_sails sound reliable q phases.length last content
                (orderly.free free).2 free here with
                ⟨sails, -⟩ | ⟨result, finished⟩
              · exact .inr ⟨_, by simp [move, begin], Phase.sails_prosper _ sails⟩
              · exact .inl (by simp only [move, begin, finished])
          | busy q start front back phase before after call length length' taken here sails ended refused whole runs =>
              have same :=
                begin_refused ⟨q, front ++ phase :: back⟩ front.length phase last content
                  orderly taken (by simp) sails
              exact .inl (by simp only [move, same])
      | _ => exact write.elim
  | advance j =>
      obtain rfl : j = i := own
      cases present : c.phases[j]? with
      | none => exact .inl (by simp only [move, advance, present])
      | some phase =>
          rcases linear_phases sound r c calls j phase linear present with ended | sails
          · cases phase with
            | done result => exact .inl (by simp only [move, advance, present, Response.resume])
            | _ => exact ended.elim
          · exact .inr (move_prospers sound reliable faultless r c calls _ j phase linear present
              (phase.sails_prosper sails))

end Writing

end Calls

end Gateway.Gzip
