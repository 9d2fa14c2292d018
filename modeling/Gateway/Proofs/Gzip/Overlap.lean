import Gateway.Proofs.Gzip.Decision
import Gateway.Proofs.Gzip.Linear

set_option autoImplicit false

namespace Gateway.Gzip

variable {σ κ : Type}

namespace Write

variable [Deflate.Compressor κ] (w : Write) (s : Session κ) (r : Resources κ) (e : Deflate.Engine κ) (b : Buffer)

theorem conclude_outputs : b.data <+: (w.conclude s r e b).session.output := by
  rw [conclude]
  by_cases fits : e.finished ∧ trailerSize ≤ b.free
  · rw [if_pos fits]
    exact List.prefix_append b.data (trailer s.checksum)
  · rw [if_neg fits]
    exact List.prefix_rfl

theorem deflate_outputs : b.data <+: (w.deflate s r e b).session.output := by
  rw [deflate]
  generalize e.deflate b.free s.syncFlush = called
  obtain ⟨d, result⟩ := called
  cases result with
  | ok out => exact (List.prefix_append b.data out).trans (conclude_outputs w s r d (b.put out))
  | error reason => exact List.prefix_rfl

theorem advance_outputs : b.data <+: (w.advance s r e b).session.output := by
  rcases advance_cases w s r e b with ⟨concluded, -⟩ | ⟨v, c, d, fed, -⟩ | ⟨paused, -⟩
  · rw [concluded]
    exact conclude_outputs w s r e b
  · rw [fed]
    exact deflate_outputs v _ r d b
  · rw [paused]
    exact List.prefix_rfl

theorem step_outputs (entry : Deflate.Entry κ) (active : s.entry = some entry) (unopened : s.buffer = none) :
    header <+: (w.step s r).session.output := by
  have opened : (openBuffer s r).1.data = header := by
    rw [openBuffer, unopened]
    exact congrArg (· ++ header) (BufferPool.acquire_empty r.buffers s.bufferSize).1
  rw [step, active]
  exact opened ▸ advance_outputs w s (openBuffer s r).2 (r.engines.engine entry) (openBuffer s r).1

end Write

namespace Verdict

def state : Verdict κ → State
  | .plain _ => .notCompressing
  | .coded _ _ _ => .compressing

def engine : Verdict κ → Option (Deflate.Entry κ)
  | .plain _ => none
  | .coded _ engine _ => some engine

def pool (engines : Deflate.Pool κ) : Verdict κ → Deflate.Pool κ
  | .plain _ => engines
  | .coded _ _ engines => engines

def phase (last : Bool) (content : Option Bytes) : Verdict κ → Phase
  | .plain _ => .writing last content .passing
  | .coded _ _ _ => if content.isNone ∧ ¬ last then .writing false none .heading else .compressing (.new last content)

-- What the sink is given first: of a compressed response that is its head alone, or output from the header on.
def Opens (last : Bool) (content : Option Bytes) (d : Delivery) : Verdict κ → Prop
  | .plain _ => d.last = last ∧ d.content = content
  | .coded _ _ _ =>
      if content.isNone ∧ ¬ last then d.last = false ∧ d.content = none
      else ∃ output, d.content = some output ∧ header <+: output

theorem state_decided (verdict : Verdict κ) : verdict.state ≠ .mightCompress := by
  cases verdict <;> simp [state]

theorem phase_sails (verdict : Verdict κ) (last : Bool) (content : Option Bytes) :
    (verdict.phase last content).Sails := by
  cases verdict with
  | plain headers => trivial
  | coded headers entry engines =>
      rw [phase]
      split
      · exact rfl
      · trivial

end Verdict

namespace Response

variable [Sink σ] (r : Response (Logged σ) κ) (verdict : Verdict κ) (last : Bool) (content : Option Bytes)

structure Decides (c : Calls (Logged σ) κ) : Prop where
  state : c.response.state = verdict.state
  sink : c.response.sink = Sink.setHead r.sink { r.head with headers := verdict.headers }
  engine : c.response.session.entry = verdict.engine
  buffer : c.response.session.buffer = none
  pool : c.response.resources.engines = verdict.pool r.resources.engines
  buffers : c.response.resources.buffers = r.resources.buffers
  phases : c.phases = [verdict.phase last content]

structure IsFirst (d : Delivery) : Prop where
  head : d.head = Sink.head (Sink.setHead r.sink { r.head with headers := verdict.headers })
  result : d.result = .ok ()
  opens : verdict.Opens last content d

variable [Deflate.Compressor κ]

theorem commit_decides (idle : r.session.entry = none) (buffer : r.session.buffer = none) :
    r.Decides (r.judge r.head last content) last content ⟨(r.commit last content).1, [(r.commit last content).2]⟩ := by
  cases judged : r.judge r.head last content with
  | plain headers =>
      rw [commit_plain r last content headers judged]
      exact ⟨rfl, rfl, idle, buffer, rfl, rfl, rfl⟩
  | coded headers entry engines =>
      have session : r.session.start { r.resources with engines } entry =
          ({ r.session with checksum := .start, entry := some entry }, { r.resources with engines }) :=
        Session.start_idle _ _ _ idle
      simp only [commit, judged, setHeaders, session]
      by_cases bare : content.isNone ∧ ¬ last
      · rw [if_pos bare]
        exact ⟨rfl, rfl, rfl, buffer, rfl, rfl, by rw [Verdict.phase, if_pos bare]⟩
      · rw [if_neg bare]
        exact ⟨rfl, rfl, rfl, buffer, rfl, rfl, by rw [Verdict.phase, if_neg bare]⟩

theorem write_decides (fresh : r.IsFresh) :
    r.Decides (r.judge r.head last (tidied content)) last (tidied content)
      ((Calls.new r).begin (.write last content)) := by
  obtain ⟨state, sink, engine, buffer, pool, buffers, phases⟩ :=
    commit_decides ({ r with state := .committing }.lock 0) last (tidied content) fresh.entry fresh.buffer
  have begun : (Calls.new r).begin (.write last content) = ⟨(r.start 0 (.write last content)).1,
      [(r.start 0 (.write last content)).2]⟩ := rfl
  rw [begun, r.first_commits last content fresh.state fresh.holder]
  exact ⟨state, sink, engine, buffer, pool, buffers, phases⟩

end Response

namespace Calls

section Leading

variable [Sink σ] (P : Delivery → Prop)

-- The write that decides is the next to come to the sink, or it was the first one there.
inductive Leads (c : Calls (Logged σ) κ) : Prop where
  | compressing (w : Write) (entry : Deflate.Entry κ) (unwritten : c.response.sink.log = [])
      (present : c.phases[0]? = some (.compressing w)) (active : c.response.session.entry = some entry)
      (unopened : c.response.session.buffer = none)
      (first : ∀ last output, header <+: output → P ⟨Sink.head c.response.sink, last, some output, .ok ()⟩)
  | writing (last : Bool) (content : Option Bytes) (site : Site) (unwritten : c.response.sink.log = [])
      (present : c.phases[0]? = some (.writing last content site))
      (first : P ⟨Sink.head c.response.sink, last, content, .ok ()⟩)
  | written (d : Delivery) (rest : List Delivery) (log : c.response.sink.log = d :: rest) (first : P d)

theorem leads_first (c : Calls (Logged σ) κ) (d : Delivery) (rest : List Delivery) (leads : Leads P c)
    (log : c.response.sink.log = d :: rest) : P d := by
  cases leads with
  | compressing w entry unwritten present active unopened first => simp [unwritten] at log
  | writing last content site unwritten present first => simp [unwritten] at log
  | written one more log' first =>
      obtain rfl : one = d := (List.cons.inj (log'.symm.trans log)).1
      exact first

theorem leads_quiet (c : Calls (Logged σ) κ) (leads : Leads P c) (quiet : c.IsQuiet) : c.response.sink.log ≠ [] := by
  cases leads with
  | compressing w entry unwritten present active unopened first => exact (quiet _ (List.mem_of_getElem? present)).elim
  | writing last content site unwritten present first => exact (quiet _ (List.mem_of_getElem? present)).elim
  | written d rest log first => exact log ▸ List.cons_ne_nil d rest

theorem decides_leads (r : Response (Logged σ) κ) (verdict : Verdict κ) (last : Bool) (content : Option Bytes)
    (c : Calls (Logged σ) κ) (unwritten : r.sink.log = []) (decides : r.Decides verdict last content c) :
    Leads (r.IsFirst verdict last content) c := by
  have log : c.response.sink.log = [] := by rw [decides.sink]; exact unwritten
  have head : Sink.head c.response.sink =
      Sink.head (Sink.setHead r.sink { r.head with headers := verdict.headers }) := by
    rw [decides.sink]
  have present : c.phases[0]? = some (verdict.phase last content) := by rw [decides.phases]; rfl
  cases verdict with
  | plain headers => exact .writing last content .passing log present ⟨head, rfl, rfl, rfl⟩
  | coded headers entry engines =>
      by_cases bare : content.isNone ∧ ¬ last
      · rw [Verdict.phase, if_pos bare] at present
        refine .writing false none .heading log present ⟨head, rfl, ?_⟩
        rw [Verdict.Opens, if_pos bare]
        exact ⟨rfl, rfl⟩
      · rw [Verdict.phase, if_neg bare] at present
        refine .compressing _ entry log present decides.engine decides.buffer fun final output opened => ⟨head, rfl, ?_⟩
        rw [Verdict.Opens, if_neg bare]
        exact ⟨output, rfl, opened⟩

variable [Deflate.Compressor κ] (sound : σ → Prop) (r : Response (Logged σ) κ)
    (c : Calls (Logged σ) κ) (calls : List Call)

theorem linear_bound (linear : Linear (fun s => sound s.sink) r c calls) (decided : c.response.state ≠ .mightCompress) :
    c.Bound c.response.sink.upcoming c.response.sink.log := by
  refine ⟨decided, fun phase member commits => ?_, rfl, List.prefix_rfl⟩
  obtain ⟨i, present⟩ := List.mem_iff_getElem?.mp member
  rcases linear_phases _ r c calls i phase linear present with ended | sails
  · cases phase with
    | done result => exact commits
    | _ => exact ended
  · cases phase with
    | waiting errand => exact sails
    | _ => exact commits

theorem written_leads (m : Move) (d : Delivery) (rest : List Delivery)
    (linear : Linear (fun s => sound s.sink) r c calls)
    (decided : c.response.state ≠ .mightCompress) (log : c.response.sink.log = d :: rest) (first : P d) :
    Leads P (c.move m) := by
  have bound := linear_bound sound r c calls linear decided
  obtain ⟨later, grown⟩ := (play_bound _ _ c [m] bound).grown
  exact .written d (rest ++ later) (by rw [← List.cons_append, ← log]; exact grown.symm) first

theorem begin_leads (last : Bool) (content : Option Bytes) (orderly : c.Orderly)
    (linear : Linear (fun s => sound s.sink) r c calls) (decided : c.response.state ≠ .mightCompress)
    (leads : Leads P c) :
    Leads P (c.begin (.write last content)) := by
  cases leads with
  | written d rest log first =>
      exact written_leads P sound r c calls (.begin (.write last content)) d rest linear decided log first
  | compressing w entry unwritten present active unopened first =>
      have busy : ¬ c.IsQuiet := fun quiet => quiet _ (List.mem_of_getElem? present)
      obtain ⟨bound, -⟩ := List.getElem?_eq_some_iff.mp present
      rw [linear_busy _ r c calls last content orderly linear busy]
      exact .compressing w entry unwritten ((List.getElem?_append_left bound).trans present) active unopened first
  | writing next octets site unwritten present first =>
      have busy : ¬ c.IsQuiet := fun quiet => quiet _ (List.mem_of_getElem? present)
      obtain ⟨bound, -⟩ := List.getElem?_eq_some_iff.mp present
      rw [linear_busy _ r c calls last content orderly linear busy]
      exact .writing next octets site unwritten ((List.getElem?_append_left bound).trans present) first

theorem advance_present (i : Nat) (phase : Phase) (present : c.phases[i]? = some phase) :
    (c.advance i).response = (c.response.resume i phase).1 ∧
      (c.advance i).phases[i]? = some (c.response.resume i phase).2 := by
  obtain ⟨bound, -⟩ := List.getElem?_eq_some_iff.mp present
  rw [advance, present]
  exact ⟨rfl, List.getElem?_set_self bound⟩

section Advancing

variable (reliable : Sink.Reliable sound) (faultless : Faultless κ)

include faultless in
theorem compress_leads (w : Write) (entry : Deflate.Entry κ) (unwritten : c.response.sink.log = [])
    (present : c.phases[0]? = some (.compressing w)) (active : c.response.session.entry = some entry)
    (unopened : c.response.session.buffer = none)
    (first : ∀ last output, header <+: output → P ⟨Sink.head c.response.sink, last, some output, .ok ()⟩) :
    Leads P (c.advance 0) := by
  obtain ⟨here, next⟩ := advance_present c 0 _ present
  obtain ⟨action, done⟩ := Write.step_faultless w c.response.session c.response.resources faultless
  obtain ⟨last, rfl⟩ := Write.step_flushes w c.response.session c.response.resources entry active unopened action done
  have opened := Write.step_outputs w c.response.session c.response.resources entry active unopened
  have resumed : c.response.resume 0 (.compressing w) = c.response.compress w := rfl
  rw [resumed, Response.compress, done] at here next
  have same : (c.advance 0).response.sink = c.response.sink := by rw [here]
  exact .writing last _ _ (by rw [same, unwritten]) next (by rw [same]; exact first last _ opened)

include reliable in
theorem write_leads (last : Bool) (content : Option Bytes) (site : Site) (here : sound c.response.sink.sink)
    (decided : c.response.state ≠ .mightCompress) (unwritten : c.response.sink.log = [])
    (present : c.phases[0]? = some (.writing last content site))
    (first : P ⟨Sink.head c.response.sink, last, content, .ok ()⟩) : Leads P (c.advance 0) := by
  obtain ⟨moved, -⟩ := advance_present c 0 _ present
  obtain ⟨-, written, -⟩ :=
    Response.after_write_frame { c.response with sink := (Sink.write c.response.sink last content).1 }
    last (Sink.write c.response.sink last content).2 site decided
  obtain ⟨-, log, -⟩ := Response.logged_write sound reliable c.response.sink last content here
  have same : (c.advance 0).response.sink = (Sink.write c.response.sink last content).1 := by rw [moved]; exact written
  rw [unwritten] at log
  exact .written _ [] (by rw [same]; exact log) first

include reliable faultless

theorem advance_leads (i : Nat) (orderly : c.Orderly) (linear : Linear (fun s => sound s.sink) r c calls)
    (decided : c.response.state ≠ .mightCompress) (leads : Leads P c) : Leads P (c.advance i) := by
  by_cases mine : c.response.holder = some i
  · cases leads with
    | written d rest log first => exact written_leads P sound r c calls (.advance i) d rest linear decided log first
    | compressing w entry unwritten present active unopened first =>
        obtain ⟨taken, -⟩ := linear_sails _ r c calls 0 _ linear present trivial
        obtain rfl : 0 = i := by simpa [taken] using mine
        exact compress_leads P c faultless w entry unwritten present active unopened first
    | writing last content site unwritten present first =>
        have sails := (linear_phases _ r c calls 0 _ linear present).resolve_left id
        obtain ⟨taken, here⟩ := linear_sails _ r c calls 0 _ linear present sails
        obtain rfl : 0 = i := by simpa [taken] using mine
        exact write_leads P sound c reliable last content site here decided unwritten present first
  -- A call without the lock does not move, so that the write that decides is still the next.
  · rw [unchanged_by_idle c orderly i mine]
    exact leads

theorem play_leads (moves : List Move) (orderly : c.Orderly) (linear : Linear (fun s => sound s.sink) r c calls)
    (decided : c.response.state ≠ .mightCompress) (leads : Leads P c) (writes : ∀ m ∈ moves, m.IsWrite) :
    Leads P (c.play moves) := by
  induction moves generalizing c calls with
  | nil => exact leads
  | cons m rest ih =>
      have write := writes m List.mem_cons_self
      have step := move_advances c m orderly
      have decided' : (c.move m).response.state ≠ .mightCompress := fun back =>
        decided (State.leads_to_might_compress _ (back ▸ step.path))
      have linear' := move_linear _ (logged_reliable sound reliable) faultless r c calls m orderly linear write
      refine ih (c.move m) _ step.orderly linear' decided' ?_ fun m member => writes m (List.mem_cons_of_mem _ member)
      cases m with
      | advance i => exact advance_leads P sound r c calls reliable faultless i orderly linear decided leads
      | begin call =>
          cases call with
          | write last content => exact begin_leads P sound r c calls last content orderly linear decided leads
          | _ => exact write.elim

end Advancing

end Leading

section Overlapping

variable [Sink σ] [Deflate.Compressor κ]

theorem play_blind (c : Calls σ κ) (moves : List Move) (orderly : c.Orderly)
    (decided : c.response.state ≠ .mightCompress)
    (policy : Policy) (vary : Option Header.Value) (tags : Option Text) :
    (c.under policy vary tags).play moves = (c.play moves).under policy vary tags := by
  induction moves generalizing c with
  | nil => rfl
  | cons m rest ih =>
      have step := move_advances c m orderly
      have blind : c.decides m = false :=
        Bool.eq_false_iff.mpr fun deciding => decided (decides_first c m orderly deciding).1
      have decided' : (c.move m).response.state ≠ .mightCompress := fun back =>
        decided (State.leads_to_might_compress _ (back ▸ step.path))
      simp only [play, List.foldl_cons]
      rw [move_blind policy vary tags c m blind]
      exact ih (c.move m) step.orderly decided'

theorem idle_stays (r : Response σ κ) (idle : List Move) (none_begun : ∀ m ∈ idle, m.begun = []) :
    (new r).play idle = new r := by
  induction idle with
  | nil => rfl
  | cons m rest ih =>
      cases m with
      | advance i => exact ih fun m member => none_begun m (List.mem_cons_of_mem _ member)
      | begin call => exact absurd (none_begun _ List.mem_cons_self) (List.cons_ne_nil call [])

variable (sound : σ → Prop) (reliable : Sink.Reliable sound) (faultless : Faultless κ) (r : Response (Logged σ) κ)

include reliable faultless

theorem refused_unmoved (before after : List Move) (m : Move) (i : Nat) (e : SendError) (fresh : r.IsFresh)
    (here : sound r.sink.sink) (writes : ∀ one ∈ before ++ m :: after, one.IsWrite)
    (own : m.IsOf ((new r).play before).phases.length i)
    (failed : ((new r).play (before ++ m :: after)).phases[i]? = some (.done (.error e))) :
    ((new r).play (before ++ [m])).response = ((new r).play before).response := by
  have sturdy := logged_reliable sound reliable
  have orderly := new_orderly r fresh
  have linear := play_linear _ sturdy faultless r (new r) [] before orderly (new_linear _ r fresh here)
    fun m member => writes m (List.mem_append_left _ member)
  have orderly' := (play_advances (new r) before orderly).orderly
  have write : m.IsWrite := writes m (by simp)
  have moved : (new r).play (before ++ [m]) = ((new r).play before).move m := play_append (new r) before [m]
  rw [moved]
  rcases move_unmoved _ sturdy faultless r _ _ m i orderly' linear write own with same | ⟨phase, present, prospers⟩
  · exact same
  · have rest : ∀ m ∈ after, m.IsWrite := fun m member => writes m (by simp [member])
    obtain ⟨next, found, prospers'⟩ := play_prospers _ sturdy faultless r _ _ after i phase
      (move_advances _ m orderly').orderly (move_linear _ sturdy faultless r _ _ m orderly' linear write) rest
      present prospers
    have whole : (new r).play (before ++ m :: after) = (((new r).play before).move m).play after :=
      play_append (new r) before (m :: after)
    rw [whole, found] at failed
    obtain rfl : next = .done (.error e) := by simpa using failed
    exact prospers'.elim

structure Begun (last : Bool) (content : Option Bytes) (first c : Calls (Logged σ) κ) : Prop where
  decides : r.Decides (r.judge r.head last content) last content first
  leads : Leads (r.IsFirst (r.judge r.head last content) last content) c
  prospers : ∃ phase, c.phases[0]? = some phase ∧ phase.Prospers

theorem first_begun (last : Bool) (content : Option Bytes) (later : List Move) (fresh : r.IsFresh)
    (here : sound r.sink.sink)
    (unwritten : r.sink.log = []) (writes : ∀ m ∈ later, m.IsWrite) :
    Begun r last (Response.tidied content) ((new r).begin (.write last content))
      (((new r).begin (.write last content)).play later) := by
  have sturdy := logged_reliable sound reliable
  have orderly := new_orderly r fresh
  have decides := r.write_decides last content fresh
  have present : ((new r).begin (.write last content)).phases[0]? =
      some ((r.judge r.head last (Response.tidied content)).phase last (Response.tidied content)) := by
        rw [decides.phases]; rfl
  have linear := begin_linear _ sturdy r (new r) [] last content orderly (new_linear _ r fresh here)
  have orderly' := (begin_advances (new r) (.write last content) orderly).orderly
  have decided : ((new r).begin (.write last content)).response.state ≠ .mightCompress := by
    rw [decides.state]
    exact Verdict.state_decided _
  refine ⟨decides, ?_, ?_⟩
  · exact play_leads _ sound r _ _ reliable faultless later orderly' linear decided
      (decides_leads r _ last (Response.tidied content) _ unwritten decides) writes
  · exact play_prospers _ sturdy faultless r _ _ later 0 _ orderly' linear writes present
      (Phase.sails_prosper _ (Verdict.phase_sails _ last (Response.tidied content)))

theorem linearizes (moves : List Move) (fresh : r.IsFresh) (here : sound r.sink.sink) (unwritten : r.sink.log = [])
    (writes : ∀ m ∈ moves, m.IsWrite) :
    let c := (new r).play moves
    -- No move of a refused write has any effect.
    (∀ before m after i e, moves = before ++ m :: after → m.IsOf ((new r).play before).phases.length i →
      c.phases[i]? = some (.done (.error e)) →
      ((new r).play (before ++ [m])).response = ((new r).play before).response) ∧
    -- Once all are done the response is what the accepted writes alone make of it.
    (c.IsQuiet → (r.perform (accepted (moves.flatMap Move.begun) c.phases)).1 = c.response ∧
      ∀ result ∈ (r.perform (accepted (moves.flatMap Move.begun) c.phases)).2, result = .ok ()) ∧
    -- A write that begins while another is under way is refused.
    (¬ c.IsQuiet → ∀ last content,
      c.begin (.write last content) = ⟨c.response, c.phases ++ [.done (.error .writePending)]⟩) ∧
    -- The first write decides, by its head; nothing decides after it, and it is the first that the sink gets.
    (∀ idle last content later, moves = idle ++ .begin (.write last content) :: later → (∀ m ∈ idle, m.begun = []) →
      let verdict := r.judge r.head last (Response.tidied content)
      let first := (new r).play (idle ++ [.begin (.write last content)])
      (new r).play idle = new r ∧ r.Decides verdict last (Response.tidied content) first ∧
      (∀ policy vary tags, (first.under policy vary tags).play later = c.under policy vary tags) ∧
      (∀ d rest, c.response.sink.log = d :: rest → r.IsFirst verdict last (Response.tidied content) d) ∧
      (c.IsQuiet → c.phases[0]? = some (.done (.ok ())) ∧ c.response.sink.log ≠ [])) := by
  intro c
  have sturdy := logged_reliable sound reliable
  have orderly := new_orderly r fresh
  have linear := new_linear (fun s : Logged σ => sound s.sink) r fresh here
  have orderly' : c.Orderly := (play_advances (new r) moves orderly).orderly
  have linear' : Linear _ r c (moves.flatMap Move.begun) :=
    play_linear _ sturdy faultless r (new r) [] moves orderly linear writes
  refine ⟨?_, ?_, ?_, ?_⟩
  · rintro before m after i e rfl own failed
    exact refused_unmoved sound reliable faultless r before after m i e fresh here writes own failed
  · exact fun quiet => linear_quiet _ r c _ linear' quiet
  · exact fun busy last content => linear_busy _ r c _ last content orderly' linear' busy
  · rintro idle last content later rfl none_begun
    have quiet := idle_stays r idle none_begun
    have first : (new r).play (idle ++ [.begin (.write last content)]) = (new r).begin (.write last content) := by
      rw [play_append, quiet]
      rfl
    have whole : c = ((new r).begin (.write last content)).play later := by
      rw [← first, ← play_append, ← List.append_cons]
    have begun := first_begun sound reliable faultless r last content later fresh here unwritten
      fun m member => writes m (by simp [member])
    refine ⟨quiet, ?_, ?_, ?_, ?_⟩
    · rw [first]
      exact begun.decides
    · intro policy vary tags
      have decided : ((new r).begin (.write last content)).response.state ≠ .mightCompress := by
        rw [begun.decides.state]
        exact Verdict.state_decided _
      rw [first, whole]
      exact play_blind _ later (begin_advances (new r) (.write last content) orderly).orderly decided policy vary tags
    · exact fun d rest log => leads_first _ c d rest (whole ▸ begun.leads) log
    · intro still
      obtain ⟨phase, present, prospers⟩ := begun.prospers
      rw [← whole] at present
      refine ⟨?_, leads_quiet _ c (whole ▸ begun.leads) still⟩
      rcases phase.prospers_cases prospers with rfl | sails
      · exact present
      · exact (phase.sails_undone sails (still phase (List.mem_of_getElem? present))).elim

end Overlapping

def shared : Response (Logged Recorder) Deflate.Encoder := .new ⟨.new .empty, []⟩ ⟨[], 0⟩ ⟨.new 1 6, .standard⟩

def overlap : List Move :=
  [.begin (.write false (some [104])), .begin (.write true (some [105])), .advance 0, .advance 0, .advance 0]

theorem linearizes_overlap :
    shared.IsFresh ∧ ((new shared).play overlap).phases = [.done (.ok ()), .done (.error .writePending)] ∧
    (shared.perform [.write false (some [104])]).1 = ((new shared).play overlap).response ∧
    ((new shared).play [.begin (.write false (some [104]))]).response.state = .compressing ∧
    ∃ d rest output, ((new shared).play overlap).response.sink.log = d :: rest ∧
      d.head.headers.contains .contentEncoding ∧ d.content = some output ∧ header <+: output := by
  have fresh : shared.IsFresh := Response.new_fresh _ _ _
  have phases : ((new shared).play overlap).phases = [.done (.ok ()), .done (.error .writePending)] := by rfl
  have writes : ∀ m ∈ overlap, m.IsWrite := by
    intro m member
    simp only [overlap, List.mem_cons, List.not_mem_nil, or_false] at member
    rcases member with rfl | rfl | rfl | rfl | rfl <;> trivial
  obtain ⟨-, whole, -, decided⟩ := linearizes Recorder.IsOpen recorder_reliable encoder_faultless shared overlap fresh
    ⟨rfl, rfl⟩ rfl writes
  have quiet : ((new shared).play overlap).IsQuiet := by
    intro phase member
    rw [phases] at member
    simp only [List.mem_cons, List.not_mem_nil, or_false] at member
    rcases member with rfl | rfl <;> trivial
  have performed := (whole quiet).1
  rw [phases] at performed
  obtain ⟨-, decides, -, first, ended⟩ := decided [] false (some [104]) overlap.tail rfl nofun
  obtain ⟨d, rest, log⟩ := List.exists_cons_of_ne_nil (ended quiet).2
  obtain ⟨head, -, opens⟩ := first d rest log
  obtain ⟨headers, entry, engines, judged, encoded⟩ : ∃ headers entry engines,
      shared.judge shared.head false (Response.tidied (some [104])) = .coded headers entry engines ∧
      headers.contains .contentEncoding := ⟨_, _, _, rfl, rfl⟩
  rw [judged] at head opens decides
  obtain ⟨output, written, opened⟩ := opens
  exact ⟨fresh, phases, performed, decides.state, d, rest, output, log, head ▸ encoded, written, opened⟩

end Calls

end Gateway.Gzip
