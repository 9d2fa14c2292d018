import Gateway.Deflate.Encoder
import Gateway.Gzip.Stage
import Gateway.Proofs.Gzip.Judgement
import Gateway.Proofs.Gzip.Turns
import Gateway.Proofs.Sink.Logged

set_option autoImplicit false

namespace Gateway

namespace Gzip

variable {σ κ : Type} [Sink σ]

namespace Response

section Standing

variable (p : Policy) (plain : Head) (r q : Response (Logged σ) κ)

structure IsUndecided : Prop where
  state : r.state = .mightCompress ∨ r.state = .committing
  policy : r.policy = p
  vary : NamesCodings r.vary
  unwritten : r.sink.log = []
  head : r.head = plain

structure IsDecided : Prop where
  past : r.state ≠ .mightCompress ∧ r.state ≠ .committing
  judged : Judged p plain r.sink.upcoming

structure IsUnused : Prop where
  ended : r.state = .finished
  unwritten : r.sink.log = []

def IsKnown : Prop := r.IsUndecided p plain ∨ r.IsDecided p plain ∨ r.IsUnused

def Stands : Phase → Prop
  | .waiting (.commit _ _) => r.IsUndecided p plain
  | .waiting .abandon => r.IsKnown p plain
  | .writing _ _ _ => r.IsDecided p plain
  | .compressing _ => r.IsDecided p plain
  | .done _ => r.IsKnown p plain

theorem decided_frame (decided : r.IsDecided p plain) (state : q.state = r.state ∨ q.state = .finished)
    (same : q.sink.upcoming = r.sink.upcoming) : q.IsDecided p plain := by
  refine ⟨?_, same ▸ decided.judged⟩
  rcases state with kept | ended
  · rw [kept]
    exact decided.past
  · rw [ended]
    exact ⟨nofun, nofun⟩

theorem ended_known (known : r.IsKnown p plain) (ended : q.state = .finished) (same : q.sink = r.sink) :
    q.IsKnown p plain := by
  rcases known with undecided | decided | unused
  · exact .inr (.inr ⟨ended, same ▸ undecided.unwritten⟩)
  · exact .inr (.inl (decided_frame p plain r q decided (.inr ended) (by rw [same])))
  · exact .inr (.inr ⟨ended, same ▸ unused.unwritten⟩)

theorem stands_alike (phase : Phase) (state : q.state = r.state) (policy : q.policy = r.policy) (vary : q.vary = r.vary)
    (sink : q.sink = r.sink) (stands : r.Stands p plain phase) : q.Stands p plain phase := by
  have undecided (here : r.IsUndecided p plain) : q.IsUndecided p plain :=
    { state := state ▸ here.state
      policy := policy.trans here.policy
      vary := vary ▸ here.vary
      unwritten := sink ▸ here.unwritten
      head := (congrArg Sink.head sink).trans here.head }
  have decided (here : r.IsDecided p plain) : q.IsDecided p plain :=
    decided_frame p plain r q here (.inl state) (by rw [sink])
  have known (here : r.IsKnown p plain) : q.IsKnown p plain := by
    rcases here with here | here | here
    · exact .inl (undecided here)
    · exact .inr (.inl (decided here))
    · exact .inr (.inr ⟨state.trans here.ended, sink ▸ here.unwritten⟩)
  cases phase with
  | waiting errand =>
      cases errand with
      | commit last content => exact undecided stands
      | abandon => exact known stands
  | done result => exact known stands
  | _ => exact decided stands

variable [Deflate.Compressor κ]

theorem compress_stands (w : Write) (decided : r.IsDecided p plain) :
    (r.compress w).1.Stands p plain (r.compress w).2 := by
  unfold compress
  generalize w.step r.session r.resources = progress
  have stepped : ({ r with session := progress.session, resources := progress.resources } :
      Response (Logged σ) κ).IsDecided p plain := decided_frame p plain r _ decided (.inl rfl) rfl
  dsimp only
  cases progress.action with
  | error reason => exact ended_known p plain _ _ (.inr (.inl stepped)) rfl rfl
  | ok action =>
      cases action with
      | succeeded => exact .inr (.inl (decided_frame p plain _ _ stepped (.inl rfl) rfl))
      | _ => exact stepped

theorem after_write_stands (last : Bool) (result : Sent) (site : Site) (decided : r.IsDecided p plain) :
    (r.afterWrite last result site).1.Stands p plain (r.afterWrite last result site).2 := by
  have ended (q : Response (Logged σ) κ) (finished : q.state = .finished) (same : q.sink = r.sink) :
      q.IsKnown p plain :=
    ended_known p plain r q (.inr (.inl decided)) finished same
  have left : (r.leave (.ok ())).1.IsKnown p plain := .inr (.inl (decided_frame p plain r _ decided (.inl rfl) rfl))
  cases site with
  | passing =>
      cases result with
      | error e => exact ended _ rfl rfl
      | ok done =>
          cases last with
          | true => exact ended _ rfl rfl
          | false => exact left
  | heading =>
      cases result with
      | error e => exact ended _ rfl rfl
      | ok done => exact left
  | flushing w =>
      cases result with
      | error e => exact ended _ rfl rfl
      | ok done =>
          cases last with
          | true => exact ended _ rfl rfl
          | false => exact decided

variable (editable : Sink.Editable σ)

include editable in
theorem commit_stands (last : Bool) (content : Option Bytes) (undecided : r.IsUndecided p plain) :
    (r.commit last content).1.Stands p plain (r.commit last content).2 := by
  have judged := judge_judged r undecided.vary r.head last content
  have upcoming (headers : Header.Map) : (r.setHeaders headers).sink.upcoming = { r.head with headers } :=
    Logged.edited_upcoming editable r.sink _ undecided.unwritten
  rw [undecided.policy] at judged
  unfold commit
  cases verdict : r.judge r.head last content with
  | plain headers =>
      rw [verdict, Verdict.headers, ← upcoming, undecided.head] at judged
      exact ⟨⟨nofun, nofun⟩, judged⟩
  | coded headers entry engines =>
      rw [verdict, Verdict.headers, ← upcoming, undecided.head] at judged
      dsimp only
      split
      · exact ⟨⟨nofun, nofun⟩, judged⟩
      · exact ⟨⟨nofun, nofun⟩, judged⟩

include editable in
theorem run_stands (errand : Errand) (stands : r.Stands p plain (.waiting errand)) :
    (r.run errand).1.Stands p plain (r.run errand).2 := by
  cases errand with
  | commit last content => exact commit_stands p plain r editable last content stands
  | abandon => exact ended_known p plain r (r.finish.unlock) stands rfl rfl

include editable

theorem acquire_stands (me : Nat) (errand : Errand) (stands : r.Stands p plain (.waiting errand)) :
    (r.acquire me errand).1.Stands p plain (r.acquire me errand).2 := by
  rw [acquire]
  by_cases free : r.holder.isNone = true
  · rw [if_pos free]
    exact run_stands p plain (r.lock me) editable errand (stands_alike p plain r _ _ rfl rfl rfl rfl stands)
  · rw [if_neg free]
    exact stands_alike p plain r _ _ rfl rfl rfl rfl stands

theorem dispatch_stands (me : Nat) (last : Bool) (content : Option Bytes) (known : r.IsKnown p plain) :
    (r.dispatch me last content).1.Stands p plain (r.dispatch me last content).2 := by
  have past : r.state ≠ .mightCompress ∧ r.state ≠ .committing ∧ r.state ≠ .finished → r.IsDecided p plain := by
    rintro ⟨started, committed, goes_on⟩
    rcases known with undecided | decided | unused
    · exact (undecided.state.elim started committed).elim
    · exact decided
    · exact (goes_on unused.ended).elim
  unfold dispatch
  cases state : r.state with
  | mightCompress =>
      refine acquire_stands p plain { r with state := .committing } editable me (.commit last content) ?_
      rcases known with undecided | decided | unused
      · exact ⟨.inr rfl, undecided.policy, undecided.vary, undecided.unwritten, undecided.head⟩
      · exact (decided.past.1 state).elim
      · have ended := unused.ended
        rw [state] at ended
        cases ended
  | committing => exact known
  | notCompressing =>
      have decided := past (by simp [state])
      by_cases free : r.holder.isNone = true
      · simp only [if_pos free]
        exact stands_alike p plain r _ (.compressing (.new last content)) rfl rfl rfl rfl decided
      · simp only [if_neg free]
        exact known
  | compressing =>
      have decided := past (by simp [state])
      by_cases free : r.holder.isNone = true
      · simp only [if_pos free]
        exact stands_alike p plain r _ (.compressing (.new last content)) rfl rfl rfl rfl decided
      · simp only [if_neg free]
        exact known
  | finished => exact known

theorem start_stands (me : Nat) (call : Call) (known : r.IsKnown p plain) (compresses : call ≠ .noCompression) :
    (r.start me call).1.Stands p plain (r.start me call).2 := by
  have completed : ({ r with completed := true } : Response (Logged σ) κ).IsKnown p plain :=
    stands_alike p plain r _ (.done (.ok ())) rfl rfl rfl rfl known
  cases call with
  | write last content => exact dispatch_stands p plain r editable me last _ known
  | succeeded =>
      rw [start]
      by_cases again : r.completed = true
      · rw [if_pos again]
        exact known
      · rw [if_neg again]
        exact dispatch_stands p plain _ editable me true none completed
  | failed =>
      rw [start]
      by_cases again : r.completed = true
      · rw [if_pos again]
        exact known
      · rw [if_neg again]
        exact acquire_stands p plain _ editable me .abandon completed
  | noCompression => exact (compresses rfl).elim

theorem resume_stands (me : Nat) (phase : Phase) (stands : r.Stands p plain phase) :
    (r.resume me phase).1.Stands p plain (r.resume me phase).2 := by
  cases phase with
  | waiting errand =>
      rw [resume]
      by_cases mine : r.holder = some me
      · rw [if_pos mine]
        exact run_stands p plain r editable errand stands
      · rw [if_neg mine]
        exact stands
  | writing last content site =>
      refine after_write_stands p plain _ last _ site ?_
      exact decided_frame p plain r _ stands (.inl rfl) (Logged.write_upcoming r.sink last content)
  | compressing w => exact compress_stands p plain r w stands
  | done result => exact stands

-- The induction is on the steps that a call takes.
theorem settle_known (me : Nat) (phase : Phase) (q : Response (Logged σ) κ × Sent) (stands : r.Stands p plain phase)
    (settled : settle me r phase = some q) : q.1.IsKnown p plain := by
  refine settle.partial_correctness me (fun r phase q => r.Stands p plain phase → q.1.IsKnown p plain)
    ?_ r phase q settled
    stands
  intro settle ih r phase q step stands
  have resumed := resume_stands p plain r editable me phase stands
  cases phase with
  | done result =>
      obtain rfl : (r, result) = q := by simpa using step
      exact stands
  | _ =>
      dsimp only at step
      split at step
      · -- A call that waits for another one does not come to its end.
        cases step
      · exact ih _ _ q step resumed

theorem call_known (call : Call) (known : r.IsKnown p plain) (compresses : call ≠ .noCompression) :
    (r.call call).1.IsKnown p plain := by
  have started := start_stands p plain r editable 0 call known compresses
  unfold Response.call
  dsimp only
  cases settled : settle 0 (r.start 0 call).1 (r.start 0 call).2 with
  | none => exact known
  | some q => exact settle_known p plain _ editable 0 _ q started settled

end Standing

theorem known_judged (p : Policy) (plain head : Head) (r : Response (Logged σ) κ) (known : r.IsKnown p plain)
    (committed : r.sink.committed = some head) : Judged p plain head := by
  rcases known with undecided | decided | unused
  · rw [Logged.unwritten_uncommitted r.sink undecided.unwritten] at committed
    cases committed
  · exact Logged.committed_upcoming r.sink head committed ▸ decided.judged
  · rw [Logged.unwritten_uncommitted r.sink unused.unwritten] at committed
    cases committed

end Response

end Gzip

structure Request.AlikeBut (name : Header.Name) (a b : Request) : Prop where
  rest : a.withHeaders .empty = b.withHeaders .empty
  headers : ∀ other, other ≠ name → a.headers.getAll other = b.headers.getAll other

namespace Gzip

namespace Stage

variable (s : Stage)

def compresses (r : Request) : Bool := s.isEligible r && !r.headers.contains .contentEncoding && accepts r.headers

def shown (r : Request) : Request := if s.compresses r then unmark r (markedTags r) else r

structure Serves (σ κ : Type) [Sink σ] [Deflate.Compressor κ] (f : Message → Except HttpError Reply) (request : Request)
    (reply : Reply) (plain final : Head) : Prop where
  answer : f (s.shown request).copyMessage = .ok reply
  run : ∃ (resources : Resources κ) (sink : Logged σ), sink.log = [] ∧ plain = reply.headOn (Sink.head sink) ∧
    ((s.wrap (Handler.ofAnswers f)).handle (resources, ()) request sink).sink.committed = some final

variable {σ κ : Type} [Sink σ] [Deflate.Compressor κ]

omit [Deflate.Compressor κ] in
theorem config_names (c : Config) (resources : Resources κ) (configured : ofConfig c = .ok (s, resources))
    (vary : c.vary = some acceptEncoding) : NamesCodings s.vary := by
  have readable : acceptEncoding.all (fun c => decide (Header.Value.IsReadable c)) = true := by decide
  obtain ⟨value, made, read⟩ := Header.Value.of_text_readable acceptEncoding fun c member =>
    of_decide_eq_true (List.all_eq_true.mp readable c member)
  have given : readVary c = .ok (some value) := by
    have wanted : c.vary? = some acceptEncoding := by
      rw [Config.vary?, vary]
      decide
    rw [readVary, wanted]
    dsimp only
    rw [made]
  simp only [ofConfig, given] at configured
  cases policy : (Policy.ofConfig c : Except ConfigError (Policy × Deflate.Pool κ)) with
  | error e =>
      rw [policy] at configured
      cases configured
  | ok chosen =>
      cases methods : Config.readMethods c.methods with
      | error e =>
          rw [policy, methods] at configured
          cases configured
      | ok methods' =>
          rw [policy, methods] at configured
          cases configured
          exact ⟨value, rfl, read⟩

theorem shown_other (r : Request) (other : ¬ s.compresses r = true) : s.shown r = r := by
  rw [shown, if_neg other]

variable (f : Message → Except HttpError Reply) (request : Request) (reply : Reply) (resources : Resources κ)
  (sink : Logged σ) (final : Head)

theorem complete_known (p : Policy) (plain : Head) (r : Response (Logged σ) κ) (result : Except HttpError Unit)
    (editable : Sink.Editable σ) (known : r.IsKnown p plain) : (complete r result).1.IsKnown p plain := by
  cases result with
  | ok done => exact Response.call_known p plain r editable .succeeded known nofun
  | error e =>
      have failed := Response.call_known p plain r editable .failed known nofun
      rw [complete]
      generalize r.call .failed = called at failed
      obtain ⟨q, sent⟩ := called
      cases sent with
      | ok done => exact failed
      | error e => exact failed

theorem sent_known (tags : Option Text) (editable : Sink.Editable σ) (unwritten : sink.log = [])
    (names : NamesCodings s.vary) :
    (reply.send (s.response sink resources tags)).1.IsKnown s.policy (reply.headOn (Sink.head sink)) := by
  refine Frame.send_all_keeps (Response.IsKnown s.policy (reply.headOn (Sink.head sink))) ?_ reply.frames _ (.inl ?_)
  · exact fun r last content known => Response.call_known _ _ r editable (.write last content) known nofun
  · exact ⟨.inl rfl, rfl, names, unwritten, editable sink.sink _⟩

omit [Deflate.Compressor κ] in
theorem ensure_vary_head (editable : Sink.Editable σ) :
    Sink.head (s.ensureVary sink) =
      { Sink.head sink with headers := Vary.ensure? (Sink.head sink).headers s.vary } := by
  rw [ensureVary]
  cases s.vary with
  | none => rfl
  | some vary => exact editable sink.sink _

theorem ensured_varies (head : Head) (names : NamesCodings s.vary) :
    Varies (reply.headOn { head with headers := Vary.ensure? head.headers s.vary }).headers ↔
      reply.headers.contains .vary = false ∨ Varies reply.headers := by
  have extended := Header.Map.getAll_extend (Vary.ensure? head.headers s.vary) reply.headers .vary
  by_cases own : reply.headers.contains .vary = true
  · rw [if_pos own] at extended
    rw [Reply.headOn, varies_congr _ reply.headers extended, own]
    simp
  · rw [if_neg own] at extended
    refine iff_of_true ?_ (.inl (by simpa using own))
    exact (varies_congr _ _ extended).mpr (ensure_varies head.headers s.vary names)

section Answering

variable (answer : f (s.shown request).copyMessage = .ok reply)
  (committed : ((s.wrap (Handler.ofAnswers f)).handle (resources, ()) request sink).sink.committed = some final)
  (editable : Sink.Editable σ) (unwritten : sink.log = [])

include answer committed editable unwritten

theorem ineligible_head (ineligible : s.isEligible request = false) : final = reply.headOn (Sink.head sink) := by
  rw [shown_other s request (by simp [compresses, ineligible])] at answer
  simp only [wrap, ineligible, Bool.not_false, if_true, Handler.answer_sent f request sink reply answer] at committed
  exact Reply.sent_head editable reply sink final unwritten committed

theorem refused_head (eligible : s.isEligible request = true) (other : ¬ s.compresses request = true) :
    final = reply.headOn (Sink.head (s.ensureVary sink)) := by
  rw [shown_other s request other] at answer
  have refused : (request.headers.contains .contentEncoding || !accepts request.headers) = true := by
    simpa [compresses, eligible, Bool.or_eq_true, Classical.or_iff_not_imp_left] using other
  have unwritten' : (s.ensureVary sink).log = [] := by
    rw [ensureVary]
    cases s.vary with
    | none => exact unwritten
    | some vary => exact unwritten
  simp only [wrap, eligible, refused, Bool.not_true, Bool.false_eq_true, if_false, if_true,
    Handler.answer_sent f request _ reply answer] at committed
  exact Reply.sent_head editable reply _ final unwritten' committed

theorem added_compressed (added : IsAdded (reply.headOn (Sink.head sink)) final) : s.compresses request = true := by
  by_cases compressed : s.compresses request = true
  · exact compressed
  · refine (kept_unadded _ final ?_ added).elim
    by_cases eligible : s.isEligible request = true
    · rw [refused_head s f request reply resources sink final answer committed editable unwritten eligible compressed,
        ensure_vary_head s sink editable]
      simp only [Reply.headOn, Header.Map.getAll_extend, ensure_coding]
    · rw [ineligible_head s f request reply resources sink final answer committed editable unwritten
        (by simpa using eligible)]

theorem compressed_judged (names : NamesCodings s.vary) (compressed : s.compresses request = true) :
    Judged s.policy (reply.headOn (Sink.head sink)) final := by
  rw [shown, if_pos compressed] at answer
  obtain ⟨⟨eligible, uncoded⟩, accepted⟩ :
      (s.isEligible request = true ∧ request.headers.contains .contentEncoding = false) ∧
        accepts request.headers = true := by
    simpa [compresses] using compressed
  simp only [wrap, eligible, uncoded, accepted, Bool.not_true, Bool.or_false, Bool.false_eq_true, if_false] at committed
  refine Response.known_judged s.policy _ final _ (complete_known _ _ _ _ editable ?_) committed
  rw [Handler.answer_sent f _ _ reply answer]
  exact sent_known s reply resources sink _ editable unwritten names

end Answering

theorem compresses_iff (r : Request) :
    s.compresses r = true ↔
      s.isEligible r = true ∧ r.headers.contains .contentEncoding = false ∧ accepts r.headers = true := by
  simp [compresses, and_assoc]

theorem alike_compresses (a b : Request) (alike : a.AlikeBut .acceptEncoding b) (compressed : s.compresses a = true) :
    s.isEligible b = true ∧ (s.compresses b = true ↔ accepts b.headers = true) := by
  obtain ⟨eligible, uncoded, -⟩ := (s.compresses_iff a).mp compressed
  have method : a.message.method = b.message.method := congrArg (·.message.method) alike.rest
  have uri : a.message.uri = b.message.uri := congrArg (·.message.uri) alike.rest
  have eligible' : s.isEligible b = true := by
    rw [isEligible, ← method, ← uri]
    exact eligible
  have uncoded' : b.headers.contains .contentEncoding = false := by
    rw [Bool.eq_false_iff, Ne, Header.Map.contains_values, ← alike.headers .contentEncoding (by decide),
      ← Header.Map.contains_values, uncoded]
    decide
  refine ⟨eligible', ?_⟩
  rw [s.compresses_iff b, eligible', uncoded']
  simp

-- Where the stage adds the coding for one client the response varies, and then the response to another
-- client varies too, or else it is one of two kinds: the client does not accept compressed bodies and
-- the handler has a header of its own that takes the place of the one from the stage, or it does and
-- the status, the type or the coding of the reply forbids the compression.
theorem negotiation_varies (c : Config) (configured : ofConfig c = .ok (s, resources))
    (vary : c.vary = some acceptEncoding)
    (editable : Sink.Editable σ) (a b : Request) (alike : a.AlikeBut .acceptEncoding b) (forA forB : Reply)
    (plainA plainB finalA finalB : Head) (servesA : s.Serves σ κ f a forA plainA finalA)
    (servesB : s.Serves σ κ f b forB plainB finalB) (added : IsAdded plainA finalA)
    (unadded : ¬ IsAdded plainB finalB) :
    Varies finalA.headers ∧
    (Varies finalB.headers ↔
      if accepts b.headers then plainB.status = 304 ∨ Response.allows s.policy plainB = true ∨ Varies plainB.headers
      else forB.headers.contains .vary = false ∨ Varies forB.headers) := by
  have names := config_names s c resources configured vary
  obtain ⟨answerA, resourcesA, sinkA, unwrittenA, rfl, committedA⟩ := servesA
  obtain ⟨answerB, resourcesB, sinkB, unwrittenB, rfl, committedB⟩ := servesB
  have compressed := added_compressed s f a forA resourcesA sinkA finalA answerA committedA editable unwrittenA added
  have judged :=
    compressed_judged s f a forA resourcesA sinkA finalA answerA committedA editable unwrittenA names compressed
  refine ⟨judged.added_varies s.policy _ finalA added, ?_⟩
  obtain ⟨eligible, compresses⟩ := s.alike_compresses a b alike compressed
  by_cases accepted : accepts b.headers = true
  · rw [if_pos accepted]
    exact (compressed_judged s f b forB resourcesB sinkB finalB answerB committedB editable unwrittenB names
      (compresses.mpr accepted)).varies
  · rw [if_neg accepted, refused_head s f b forB resourcesB sinkB finalB answerB committedB editable unwrittenB eligible
      (mt compresses.mp accepted), ensure_vary_head s sinkB editable]
    exact ensured_varies s forB _ names

section Pages

def plainly : Config := { excludedMedia := [] }

def stage : Stage × Resources Deflate.Encoder := (ofConfig plainly).toOption.get (by decide +kernel)

theorem stage_configured : ofConfig plainly = .ok stage := by
  have chosen {ε α : Type} (x : Except ε α) (given : x.toOption.isSome) : x = .ok (x.toOption.get given) := by
    cases x with
    | ok value => rfl
    | error e => cases given
  exact chosen _ _

def html : Header.Line := (.contentType, ⟨Text.utf8 "text/html".toList, by decide⟩)

def origin : Header.Line := (.vary, ⟨Text.utf8 "Origin".toList, by decide⟩)

def page (headers : List Header.Line) : Reply := ⟨200, .http11, .ofLines headers, [.data [104]]⟩

def visit (accepting : Bool) : Request :=
  let lines := if accepting then [(.acceptEncoding, ⟨Text.utf8 "gzip".toList, rfl⟩)] else []
  .ofMessage ⟨"GET".toList, .root, .http11, .ofLines lines, none, none⟩

theorem visits_alike : (visit true).AlikeBut .acceptEncoding (visit false) where
  rest := rfl
  headers other different := by
    refine (Header.Map.valuesOf_modify .acceptEncoding other _ []).trans ?_
    rw [if_neg different]
    rfl

def visited (headers : List Header.Line) (accepting : Bool) : Logged Recorder :=
  ((stage.1.wrap (Handler.ofAnswers fun _ => .ok (page headers))).handle (stage.2, ()) (visit accepting)
    ⟨.new .empty, []⟩).sink

def unsent (headers : List Header.Line) : Response (Logged Recorder) Deflate.Encoder :=
  Sink.setHead (stage.1.response ⟨.new .empty, []⟩ stage.2 (markedTags (visit true))) ((page headers).headOn .empty)

def pushed (headers : List Header.Line) : Response (Logged Recorder) Deflate.Encoder :=
  (unsent headers).afterCall 9 (.write false (some [104]))

def ended (headers : List Header.Line) : Response (Logged Recorder) Deflate.Encoder :=
  (pushed headers).afterCall 9 (.write true none)

def completed (headers : List Header.Line) : Response (Logged Recorder) Deflate.Encoder :=
  (ended headers).afterCall 9 .succeeded

def goesWell (headers : List Header.Line) : Bool :=
  ((unsent headers).callWithin 9 (.write false (some [104]))).any (·.2.isOk) &&
    ((pushed headers).callWithin 9 (.write true none)).any (·.2.isOk) &&
    ((ended headers).callWithin 9 .succeeded).any (·.2.isOk) &&
    !(completed headers).sink.log.isEmpty &&
    decide (IsAdded ((page headers).headOn .empty) (completed headers).sink.upcoming)

theorem visited_compressed (headers : List Header.Line) (well : goesWell headers = true) :
    (visited headers true).log.isEmpty = false ∧
    IsAdded ((page headers).headOn .empty) (visited headers true).upcoming := by
  simp only [goesWell, Bool.and_eq_true, Bool.not_eq_true', decide_eq_true_eq] at well
  obtain ⟨⟨⟨⟨first, second⟩, third⟩, written⟩, added⟩ := well
  have compressed : stage.1.compresses (visit true) = true := by decide +kernel
  obtain ⟨eligible, uncoded, accepted⟩ := (stage.1.compresses_iff _).mp compressed
  have one : Sink.write (unsent headers) false (some [104]) = (pushed headers, .ok ()) :=
    Response.call_within _ 9 _ first
  have two : Sink.write (pushed headers) true none = (ended headers, .ok ()) := Response.call_within _ 9 _ second
  have three : (ended headers).call .succeeded = (completed headers, .ok ()) := Response.call_within _ 9 _ third
  have sent : (page headers).send
      (stage.1.response (⟨.new .empty, []⟩ : Logged Recorder) stage.2 (markedTags (visit true))) =
      (ended headers, .ok ()) := by
    have whole : Frame.sendAll [.data [104]] (unsent headers) = (ended headers, .ok ()) := by
      simp only [Frame.sendAll, one, two]
    exact whole
  have same : visited headers true = (completed headers).sink := by
    simp only [visited, wrap, eligible, uncoded, accepted, Bool.not_true, Bool.or_false, Bool.false_eq_true, if_false,
      Handler.ofAnswers, Handler.ofFunction, sent]
    simp only [Except.mapError, complete, three]
  rw [same]
  exact ⟨written, added⟩

theorem page_served (headers : List Header.Line) (accepting : Bool)
    (written : (visited headers accepting).log.isEmpty = false) :
    stage.1.Serves Recorder Deflate.Encoder (fun _ => .ok (page headers)) (visit accepting) (page headers)
      ((page headers).headOn .empty) (visited headers accepting).upcoming where
  answer := rfl
  run := by
    have some_write : (visited headers accepting).log ≠ [] := by simpa using written
    exact ⟨stage.2, _, rfl, rfl, Logged.written_committed _ some_write⟩

-- A page with a header of its own is compressed for the one client, and what goes to the other does
-- not say that there is more than one.
theorem own_vary_hides :
    let served := stage.1.Serves Recorder Deflate.Encoder (fun _ => .ok (page [html, origin]))
    let plain := (page [html, origin]).headOn .empty
    plainly.vary = some acceptEncoding ∧ ofConfig plainly = .ok stage ∧
    (visit true).AlikeBut .acceptEncoding (visit false) ∧
    ∃ compressed other, served (visit true) (page [html, origin]) plain compressed ∧ IsAdded plain compressed ∧
      served (visit false) (page [html, origin]) plain other ∧ ¬ IsAdded plain other ∧ ¬ Varies other.headers := by
  obtain ⟨written, added⟩ := visited_compressed [html, origin] (by decide +kernel)
  exact ⟨rfl, stage_configured, visits_alike, (visited [html, origin] true).upcoming,
    (visited [html, origin] false).upcoming,
    page_served _ _ written, added, page_served _ _ (by decide +kernel), by decide +kernel, by decide +kernel⟩

theorem negotiation_varies_page :
    IsAdded ((page [html]).headOn .empty) (visited [html] true).upcoming ∧
    ¬ IsAdded ((page [html]).headOn .empty) (visited [html] false).upcoming ∧
    Varies (visited [html] true).upcoming.headers ∧ Varies (visited [html] false).upcoming.headers := by
  obtain ⟨written, added⟩ := visited_compressed [html] (by decide +kernel)
  have unadded : ¬ IsAdded ((page [html]).headOn .empty) (visited [html] false).upcoming := by decide +kernel
  obtain ⟨first, second⟩ := negotiation_varies stage.1 (fun _ => .ok (page [html])) stage.2 plainly stage_configured rfl
    recorder_editable (visit true) (visit false) visits_alike _ _ _ _ _ _ (page_served [html] true written)
    (page_served [html] false (by decide +kernel)) added unadded
  have refused : ¬ accepts (visit false).headers = true := by decide +kernel
  rw [if_neg refused] at second
  exact ⟨added, unadded, first, second.mpr (.inl (by decide +kernel))⟩

end Pages

end Stage

end Gzip

end Gateway
