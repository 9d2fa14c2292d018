import Gateway.Proofs.Buffer
import Gateway.Proofs.Deflate.Renewal
import Gateway.Proofs.Gzip.Course
import Gateway.Proofs.Gzip.Lending

set_option autoImplicit false

namespace Gateway.Gzip

structure Terms where
  capacity : Nat
  level : Nat
  bufferSize : Nat

namespace Terms

def room (k : Terms) : Nat := ((Buffer.new k.bufferSize).put header).capacity

def fresh {κ : Type} (k : Terms) (maxIdle : Nat) : Resources κ := ⟨.new k.capacity k.level, .new maxIdle⟩

structure Suits (k : Terms) (b : Buffer) : Prop where
  capacity : b.capacity = k.room
  within : b.data.length ≤ k.room

variable (k : Terms)

theorem opened_suits : k.Suits ((Buffer.new k.bufferSize).put header) :=
  ⟨rfl, Buffer.put_holds (.new k.bufferSize) header⟩

theorem cleared_suits (b : Buffer) (suits : k.Suits b) : k.Suits b.clear := ⟨suits.capacity, Nat.zero_le _⟩

theorem put_suits (b : Buffer) (bytes : Bytes) (suits : k.Suits b) (fits : bytes.length ≤ b.free) :
    k.Suits (b.put bytes) := by
  obtain ⟨capacity, within⟩ := suits
  rw [Buffer.free, capacity] at fits
  have room : b.data.length + bytes.length ≤ k.room := by omega
  refine ⟨(b.put_fits bytes (by rw [capacity]; exact room)).trans capacity, ?_⟩
  rw [Buffer.put_data, List.length_append]
  exact room

end Terms

variable {σ κ : Type} [Deflate.Compressor κ] (k : Terms)

structure Resources.Tidy (r : Resources κ) : Prop where
  engines : r.engines.Tidy k.capacity k.level
  buffers : r.buffers.Uniform k.room

theorem fresh_tidy (maxIdle : Nat) : (k.fresh maxIdle : Resources κ).Tidy k := ⟨Deflate.Pool.new_tidy _ _, nofun⟩

inductive Session.Twin : Session κ → Session κ → Prop where
  | mk (s : Session κ) (entry : Option (Deflate.Entry κ))
      (entries : Option.Rel (Deflate.Entry.Twin k.level) s.entry entry)
      (size : s.bufferSize = k.bufferSize) (buffers : ∀ b, s.buffer = some b → k.Suits b) : Twin s { s with entry }

structure Session.Paired (s : Session κ) (r : Resources κ) (t : Session κ) (q : Resources κ) : Prop where
  twin : s.Twin k t
  left : r.Tidy k
  right : q.Tidy k

namespace Session

variable (s t : Session κ) (r q : Resources κ)

theorem new_twin (syncFlush : Bool) : (new k.bufferSize syncFlush : Session κ).Twin k (new k.bufferSize syncFlush) :=
  .mk (new k.bufferSize syncFlush) none .none rfl nofun

theorem twin_entries (twin : s.Twin k t) : Option.Rel (Deflate.Entry.Twin k.level) s.entry t.entry := by
  obtain ⟨entry, entries, -, -⟩ := twin
  exact entries

theorem twin_output (twin : s.Twin k t) : t.output = s.output := by
  obtain ⟨entry, -, -, -⟩ := twin
  rfl

theorem release_buffer_paired (paired : s.Paired k r t q) :
    (s.releaseBuffer r).1.Paired k (s.releaseBuffer r).2 (t.releaseBuffer q).1 (t.releaseBuffer q).2 := by
  obtain ⟨⟨entry, entries, size, buffers⟩, left, right⟩ := paired
  obtain ⟨checksum, held, buffer, bufferSize, syncFlush⟩ := s
  cases buffer with
  | none => exact ⟨.mk ⟨checksum, held, none, bufferSize, syncFlush⟩ entry entries size buffers, left, right⟩
  | some b =>
      exact ⟨.mk ⟨checksum, held, none, bufferSize, syncFlush⟩ entry entries size nofun,
        ⟨left.engines, BufferPool.release_uniform _ b _ left.buffers (buffers b rfl).capacity⟩,
        ⟨right.engines, BufferPool.release_uniform _ b _ right.buffers (buffers b rfl).capacity⟩⟩

variable [Deflate.RenewableCompressor κ]

theorem release_entry_paired (paired : s.Paired k r t q) :
    (s.releaseEntry r).1.Paired k (s.releaseEntry r).2 (t.releaseEntry q).1 (t.releaseEntry q).2 := by
  obtain ⟨⟨entry, entries, size, buffers⟩, left, right⟩ := paired
  obtain ⟨checksum, held, buffer, bufferSize, syncFlush⟩ := s
  dsimp only at entries
  have empty := Twin.mk (⟨checksum, none, buffer, bufferSize, syncFlush⟩ : Session κ) none .none size buffers
  cases entries with
  | none => exact ⟨empty, left, right⟩
  | @some a b twins =>
      have first := Deflate.Pool.release_tidy _ _ _ a b left.engines twins
      have second := Deflate.Pool.release_tidy _ _ _ b a right.engines (Deflate.Engine.twin_symm _ _ _ twins)
      exact ⟨empty, ⟨first, left.buffers⟩, ⟨second, right.buffers⟩⟩

theorem release_paired (paired : s.Paired k r t q) :
    (s.release r).1.Paired k (s.release r).2 (t.release q).1 (t.release q).2 :=
  release_buffer_paired k _ _ _ _ (release_entry_paired k s t r q paired)

theorem start_paired (a b : Deflate.Entry κ) (paired : s.Paired k r t q) (twins : a.Twin k.level b) :
    (s.start r a).1.Paired k (s.start r a).2 (t.start q b).1 (t.start q b).2 := by
  have released := release_entry_paired k s t r q paired
  unfold start
  generalize s.releaseEntry r = p at released
  generalize t.releaseEntry q = p' at released
  obtain ⟨s', r'⟩ := p
  obtain ⟨t', q'⟩ := p'
  obtain ⟨⟨entry, -, size, buffers⟩, left, right⟩ := released
  exact ⟨.mk { s' with checksum := .start, entry := some a } (some b) (.some twins) size buffers, left, right⟩

end Session

structure Progress.Twin (p p' : Progress κ) : Prop where
  write : p'.write = p.write
  action : p'.action = p.action
  paired : p.session.Paired k p.resources p'.session p'.resources

namespace Write

variable (w : Write) (s t : Session κ) (r q : Resources κ) (e d : Deflate.Engine κ) (b : Buffer)

theorem open_buffer_paired (paired : s.Paired k r t q) :
    (openBuffer t q).1 = (openBuffer s r).1 ∧ k.Suits (openBuffer s r).1 ∧
    s.Paired k (openBuffer s r).2 t (openBuffer t q).2 := by
  obtain ⟨⟨entry, entries, size, buffers⟩, left, right⟩ := paired
  have opened (p : BufferPool) (uniform : p.Uniform k.room) :
      (p.acquire s.bufferSize).1.put header = (Buffer.new k.bufferSize).put header ∧
        (p.acquire s.bufferSize).2.Uniform k.room := by
    rw [size]
    exact p.acquire_put k.bufferSize header uniform
  have twin := Session.Twin.mk s entry entries size buffers
  unfold openBuffer
  obtain ⟨checksum, held, buffer, bufferSize, syncFlush⟩ := s
  cases buffer with
  | some b => exact ⟨rfl, k.cleared_suits b (buffers b rfl), twin, left, right⟩
  | none =>
      obtain ⟨first, kept⟩ := opened r.buffers left.buffers
      obtain ⟨second, kept'⟩ := opened q.buffers right.buffers
      have suits : k.Suits ((r.buffers.acquire bufferSize).1.put header) := by
        rw [first]
        exact k.opened_suits
      exact ⟨second.trans first.symm, suits, twin, ⟨left.engines, kept⟩, ⟨right.engines, kept'⟩⟩

theorem working_paired (paired : s.Paired k r t q) (twins : e.Twin k.level d) (suits : k.Suits b) :
    ({ s with entry := some ⟨some e⟩, buffer := some b } : Session κ).Paired k r
      { t with entry := some ⟨some d⟩, buffer := some b } q := by
  obtain ⟨⟨entry, -, size, -⟩, left, right⟩ := paired
  refine ⟨.mk { s with entry := some ⟨some e⟩, buffer := some b } (some ⟨some d⟩) (.some twins) size ?_, left, right⟩
  intro c same
  rw [← Option.some.inj same]
  exact suits

variable [Deflate.RenewableCompressor κ]

theorem conclude_twin (paired : s.Paired k r t q) (twins : e.Twin k.level d) (suits : k.Suits b) :
    (w.conclude s r e b).Twin k (w.conclude t q d b) := by
  have working (b : Buffer) (suits : k.Suits b) := working_paired k s t r q e d b paired twins suits
  obtain ⟨c, -, -, -⟩ := twins
  obtain ⟨⟨entry, -, -, -⟩, left, right⟩ := paired
  unfold conclude
  by_cases fits : e.finished ∧ trailerSize ≤ b.free
  · rw [if_pos fits, if_pos fits]
    exact ⟨rfl, rfl, Session.release_entry_paired k _ _ r q
      (working _ (k.put_suits b (trailer s.checksum) suits fits.2))⟩
  · rw [if_neg fits, if_neg fits]
    exact ⟨rfl, rfl, working b suits⟩

theorem deflate_twin (paired : s.Paired k r t q) (twins : e.Twin k.level d) (suits : k.Suits b) :
    (w.deflate s r e b).Twin k (w.deflate t q d b) := by
  have called : (d.deflate b.free t.syncFlush).2 = (e.deflate b.free s.syncFlush).2 ∧
      (e.deflate b.free s.syncFlush).1.Twin k.level (d.deflate b.free t.syncFlush).1 := by
    obtain ⟨⟨entry, -, -, -⟩, -, -⟩ := paired
    exact e.deflate_twin k.level d twins b.free s.syncFlush
  have fits := e.deflate_room k.level (e.twin_level k.level d twins) b.free s.syncFlush
  unfold deflate
  generalize e.deflate b.free s.syncFlush = p at called fits
  generalize d.deflate b.free t.syncFlush = p' at called
  obtain ⟨e', result⟩ := p
  obtain ⟨d', result'⟩ := p'
  obtain ⟨rfl, next⟩ : result' = result ∧ e'.Twin k.level d' := called
  cases result' with
  | error reason => exact ⟨rfl, rfl, working_paired k s t r q e' d' b paired next suits⟩
  | ok out => exact conclude_twin k w s t r q e' d' (b.put out) paired next (k.put_suits b out suits (fits out rfl))

theorem advance_twin (paired : s.Paired k r t q) (twins : e.Twin k.level d) (suits : k.Suits b) :
    (w.advance s r e b).Twin k (w.advance t q d b) := by
  obtain ⟨finished, needed⟩ := e.twin_fields k.level d twins
  unfold advance
  rw [finished, needed]
  by_cases ended : e.finished = true
  · rw [if_pos ended, if_pos ended]
    exact conclude_twin k w s t r q e d b paired twins suits
  · rw [if_neg ended, if_neg ended]
    by_cases hungry : e.needsInput = true
    · rw [if_pos hungry, if_pos hungry]
      cases w.content with
      | some content =>
          have summed : ({ s with checksum := s.checksum.add content } : Session κ).Paired k r
              { t with checksum := t.checksum.add content } q := by
            obtain ⟨⟨entry, entries, size, buffers⟩, left, right⟩ := paired
            exact ⟨.mk { s with checksum := s.checksum.add content } entry entries size buffers, left, right⟩
          exact deflate_twin k { w with content := none } _ _ r q _ _ b summed
            (e.set_input_twin k.level d twins content) suits
      | none =>
          by_cases last : w.last = true
          · simp only [if_pos last]
            exact deflate_twin k w s t r q e.finish d.finish b paired (e.finish_twin k.level d twins) suits
          · simp only [if_neg last]
            exact ⟨rfl, rfl, working_paired k s t r q e d b paired twins suits⟩
    · rw [if_neg hungry, if_neg hungry]
      exact deflate_twin k w s t r q e d b paired twins suits

theorem step_twin (paired : s.Paired k r t q) : (w.step s r).Twin k (w.step t q) := by
  have emptied := Session.release_buffer_paired k s t r q paired
  obtain ⟨same, suits, opened⟩ := open_buffer_paired k s t r q paired
  have entries := Session.twin_entries k s t paired.twin
  unfold step
  generalize s.entry = a at entries
  generalize t.entry = b at entries
  cases entries with
  | none => exact ⟨rfl, rfl, emptied⟩
  | some twins =>
      dsimp only
      rw [same]
      refine advance_twin k w s t _ _ _ _ _ opened ?_ suits
      rw [Deflate.Pool.engine, Deflate.Pool.engine, paired.left.engines.level, paired.right.engines.level]
      exact twins

end Write

namespace Response

-- Responses that differ at most in the pools and in what nobody can see of their compressors.
inductive Twin : Response σ κ → Response σ κ → Prop where
  | mk (r : Response σ κ) (t : Session κ) (q : Resources κ) (paired : r.session.Paired k r.resources t q) :
      Twin r { r with session := t, resources := q }

def Turned (p p' : Response σ κ × Phase) : Prop := Twin k p.1 p'.1 ∧ p'.2 = p.2

def Agrees (r q : Response σ κ) : Prop := r.resources.engines.acquire?.isSome = q.resources.engines.acquire?.isSome

variable (r q : Response σ κ)

theorem twin_fields (twin : r.Twin k q) : q.state = r.state ∧ q.completed = r.completed ∧ q.holder = r.holder := by
  obtain ⟨t, u, -⟩ := twin
  exact ⟨rfl, rfl, rfl⟩

theorem state_twin (twin : r.Twin k q) (state : State) : Twin k { r with state } { q with state } := by
  obtain ⟨t, u, paired⟩ := twin
  exact .mk { r with state } t u paired

theorem completed_twin (twin : r.Twin k q) : Twin k { r with completed := true } { q with completed := true } := by
  obtain ⟨t, u, paired⟩ := twin
  exact .mk { r with completed := true } t u paired

theorem lock_twin (twin : r.Twin k q) (me : Nat) : (r.lock me).Twin k (q.lock me) := by
  obtain ⟨t, u, paired⟩ := twin
  exact .mk (r.lock me) t u paired

theorem leave_turned (twin : r.Twin k q) (result : Sent) : Turned k (r.leave result) (q.leave result) := by
  obtain ⟨t, u, paired⟩ := twin
  exact ⟨.mk r.unlock t u paired, rfl⟩

variable [Deflate.RenewableCompressor κ]

theorem finish_twin (twin : r.Twin k q) : r.finish.Twin k q.finish := by
  obtain ⟨t, u, paired⟩ := twin
  exact .mk r.finish (t.release u).1 (t.release u).2 (Session.release_paired k r.session t r.resources u paired)

theorem compress_turned (twin : r.Twin k q) (w : Write) : Turned k (r.compress w) (q.compress w) := by
  obtain ⟨t, u, paired⟩ := twin
  have stepped := Write.step_twin k w r.session t r.resources u paired
  unfold compress
  dsimp only
  generalize w.step r.session r.resources = p at stepped
  generalize w.step t u = p' at stepped
  obtain ⟨write, action, paired⟩ := stepped
  rw [write, action]
  have twin := Twin.mk { r with session := p.session, resources := p.resources } p'.session p'.resources paired
  cases p.action with
  | error reason => exact leave_turned k _ _ (finish_twin k _ _ twin) _
  | ok action =>
      cases action with
      | succeeded => exact leave_turned k _ _ twin _
      | idle => exact ⟨twin, rfl⟩
      | flush last =>
          have output : p'.session.output = p.session.output := Session.twin_output k _ _ paired.twin
          refine ⟨twin, ?_⟩
          dsimp only
          rw [output]

theorem after_write_turned (twin : r.Twin k q) (last : Bool) (result : Sent) (site : Site) :
    Turned k (r.afterWrite last result site) (q.afterWrite last result site) := by
  have finished := finish_twin k r q twin
  have ended := state_twin k r q twin .finished
  have closed : r.closed.Twin k q.closed := by
    obtain ⟨t, u, paired⟩ := twin
    exact .mk r.closed _ _ (Session.release_buffer_paired k r.session t r.resources u paired)
  cases site with
  | passing =>
      cases result with
      | error e => exact leave_turned k _ _ ended _
      | ok done =>
          cases last with
          | true => exact leave_turned k _ _ ended _
          | false => exact leave_turned k r q twin _
  | heading =>
      cases result with
      | error e => exact leave_turned k _ _ finished _
      | ok done => exact leave_turned k r q twin _
  | flushing w =>
      cases result with
      | error e => exact leave_turned k _ _ finished _
      | ok done =>
          cases last with
          | false => exact ⟨twin, rfl⟩
          | true => exact leave_turned k _ _ closed _

inductive Ruled : Verdict κ → Verdict κ → Prop where
  | plain (headers : Header.Map) : Ruled (.plain headers) (.plain headers)
  | coded (headers : Header.Map) (a b : Deflate.Entry κ) (p p' : Deflate.Pool κ) (twins : a.Twin k.level b)
      (left : p.Tidy k.capacity k.level) (right : p'.Tidy k.capacity k.level) :
      Ruled (.coded headers a p) (.coded headers b p')

omit [Deflate.RenewableCompressor κ] in
theorem entry_ruled (policy : Policy) (p p' : Deflate.Pool κ) (left : p.Tidy k.capacity k.level)
    (right : p'.Tidy k.capacity k.level) (agrees : p.acquire?.isSome = p'.acquire?.isSome) (length : Option Nat) :
    Option.Rel (fun x y => x.1.Twin k.level y.1 ∧ x.2.Tidy k.capacity k.level ∧ y.2.Tidy k.capacity k.level)
      (policy.entry? p length) (policy.entry? p' length) := by
  have both : Option.Rel (fun x y => x.1.Twin k.level y.1 ∧ x.2.Tidy k.capacity k.level ∧ y.2.Tidy k.capacity k.level)
      p.acquire? p'.acquire? := by
    cases first : p.acquire? with
    | none =>
        obtain none : p'.acquire? = none := by simpa [first] using agrees.symm
        rw [none]
        exact .none
    | some x =>
        obtain ⟨y, second⟩ : ∃ y, p'.acquire? = some y := Option.isSome_iff_exists.mp (by rw [← agrees, first]; rfl)
        obtain ⟨kept, fresh⟩ := p.acquire_tidy _ _ x.2 x.1 left first
        obtain ⟨kept', fresh'⟩ := p'.acquire_tidy _ _ y.2 y.1 right second
        rw [second]
        exact .some ⟨Deflate.Engine.twin_trans _ _ _ _ fresh (Deflate.Engine.twin_symm _ _ _ fresh'), kept, kept'⟩
  cases length with
  | none => exact both
  | some n =>
      unfold Policy.entry?
      by_cases short : n < policy.minSize
      · simp only [if_pos short]
        exact .none
      · simp only [if_neg short]
        exact both

omit [Deflate.RenewableCompressor κ] in
theorem judge_ruled (twin : r.Twin k q) (agrees : r.Agrees q) (head : Head) (last : Bool) (content : Option Bytes) :
    Ruled k (r.judge head last content) (q.judge head last content) := by
  obtain ⟨t, u, paired⟩ := twin
  have chosen := entry_ruled k r.policy _ _ paired.left.engines paired.right.engines agrees
  unfold judge
  by_cases confirms : head.status = 304
  · rw [if_pos confirms, if_pos confirms]
    exact .plain _
  · rw [if_neg confirms, if_neg confirms]
    by_cases refused : (!allows r.policy head) = true
    · rw [if_pos refused, if_pos (by exact refused)]
      exact .plain head.headers
    · rw [if_neg refused, if_neg (by exact refused)]
      have given := chosen (knownLength (Vary.ensure? head.headers r.vary) last content)
      dsimp only
      generalize r.policy.entry? r.resources.engines
        (knownLength (Vary.ensure? head.headers r.vary) last content) = x at given
      generalize r.policy.entry? u.engines (knownLength (Vary.ensure? head.headers r.vary) last content) = y at given
      cases given with
      | none => exact .plain _
      | some choice => exact .coded _ _ _ _ _ choice.1 choice.2.1 choice.2.2

omit [Deflate.RenewableCompressor κ] in
theorem commit_exhausted [Sink σ] (last : Bool) (content : Option Bytes)
    (exhausted : r.resources.engines.acquire? = none) :
    (r.commit last content).1.state = .notCompressing := by
  unfold commit
  cases verdict : r.judge r.head last content with
  | plain headers => rfl
  | coded headers entry engines =>
      have given := judge_entry r r.head last content headers entry engines verdict
      rw [exhausted] at given
      cases given

variable [Sink σ]

theorem commit_turned (twin : r.Twin k q) (agrees : r.Agrees q) (last : Bool) (content : Option Bytes) :
    Turned k (r.commit last content) (q.commit last content) := by
  have ruled := judge_ruled k r q twin agrees r.head last content
  obtain ⟨t, u, paired⟩ := twin
  unfold commit
  have head : ({ r with session := t, resources := u } : Response σ κ).head = r.head := rfl
  rw [head]
  generalize r.judge r.head last content = v at ruled
  generalize ({ r with session := t, resources := u } : Response σ κ).judge r.head last content = v' at ruled
  cases ruled with
  | plain headers => exact ⟨.mk { r.setHeaders headers with state := .notCompressing } t u paired, rfl⟩
  | coded headers a b p p' twins left right =>
      have begun := Session.start_paired k r.session t { r.resources with engines := p } { u with engines := p' } a b
        ⟨paired.twin, ⟨left, paired.left.buffers⟩, ⟨right, paired.right.buffers⟩⟩ twins
      dsimp only
      by_cases heads : content.isNone = true ∧ ¬ last = true
      · rw [if_pos heads, if_pos heads]
        exact ⟨.mk { r.setHeaders headers with session := _, resources := _, state := .compressing } _ _ begun, rfl⟩
      · rw [if_neg heads, if_neg heads]
        exact ⟨.mk { r.setHeaders headers with session := _, resources := _, state := .compressing } _ _ begun, rfl⟩

theorem run_turned (twin : r.Twin k q) (errand : Errand)
    (agrees : ∀ last content, errand = .commit last content → r.Agrees q) :
    Turned k (r.run errand) (q.run errand) := by
  cases errand with
  | commit last content => exact commit_turned k r q twin (agrees last content rfl) last content
  | abandon => exact leave_turned k _ _ (finish_twin k r q twin) _

theorem acquire_turned (twin : r.Twin k q) (me : Nat) (errand : Errand)
    (agrees : ∀ last content, errand = .commit last content → r.holder.isNone = true → r.Agrees q) :
    Turned k (r.acquire me errand) (q.acquire me errand) := by
  obtain ⟨-, -, holder⟩ := twin_fields k r q twin
  unfold acquire
  rw [holder]
  by_cases free : r.holder.isNone = true
  · rw [if_pos free, if_pos free]
    exact run_turned k _ _ (lock_twin k r q twin me) errand fun last content same => agrees last content same free
  · rw [if_neg free, if_neg free]
    obtain ⟨t, u, paired⟩ := twin
    exact ⟨.mk { r with queue := r.queue ++ [me] } t u paired, rfl⟩

omit [Deflate.RenewableCompressor κ] in
theorem sent_twin (twin : r.Twin k q) (last : Bool) (content : Option Bytes) :
    (r.sent last content).Twin k (q.sent last content) ∧
    (Sink.write q.sink last content).2 = (Sink.write r.sink last content).2 := by
  obtain ⟨t, u, paired⟩ := twin
  exact ⟨.mk (r.sent last content) t u paired, rfl⟩

omit [Deflate.RenewableCompressor κ] [Sink σ] in
theorem lock_turned (twin : r.Twin k q) (me : Nat) (begun refused : Phase) :
    Turned k (if r.holder.isNone then (r.lock me, begun) else (r, refused))
      (if q.holder.isNone then (q.lock me, begun) else (q, refused)) := by
  obtain ⟨-, -, holder⟩ := twin_fields k r q twin
  rw [holder]
  split
  · exact ⟨lock_twin k r q twin me, rfl⟩
  · exact ⟨twin, rfl⟩

theorem dispatch_turned (twin : r.Twin k q) (me : Nat) (last : Bool) (content : Option Bytes)
    (agrees : r.isUndecided = true → r.Agrees q) :
    Turned k (r.dispatch me last content) (q.dispatch me last content) := by
  obtain ⟨same, -, -⟩ := twin_fields k r q twin
  cases state : r.state with
  | mightCompress =>
      simp only [dispatch, same, state]
      refine acquire_turned k _ _ (state_twin k r q twin .committing) me _ fun _ _ _ free => ?_
      exact agrees (by simpa [isUndecided, state] using free)
  | notCompressing | compressing =>
      simp only [dispatch, same, state]
      exact lock_turned k r q twin me _ _
  | committing | finished =>
      simp only [dispatch, same, state]
      exact ⟨twin, rfl⟩

end Response

structure Calls.Twin (c d : Calls σ κ) : Prop where
  response : c.response.Twin k d.response
  phases : d.phases = c.phases

namespace Calls

variable [Sink σ] [Deflate.RenewableCompressor κ] (c d : Calls σ κ)

theorem start_turned (twin : c.Twin k d) (call : Call)
    (agrees : c.decides (.begin call) = true → c.response.Agrees d.response) :
    Response.Turned k (c.response.start c.phases.length call) (d.response.start c.phases.length call) := by
  obtain ⟨state, completed, holder⟩ := Response.twin_fields k _ _ twin.response
  have complete := Response.completed_twin k _ _ twin.response
  cases call with
  | write last content => exact Response.dispatch_turned k _ _ twin.response _ last _ agrees
  | succeeded =>
      rw [Response.start, Response.start, completed]
      cases done : c.response.completed with
      | true => exact ⟨twin.response, rfl⟩
      | false =>
          refine Response.dispatch_turned k _ _ complete _ true none fun undecided => agrees ?_
          rw [decides, done]
          exact undecided
  | failed =>
      rw [Response.start, Response.start, completed]
      split
      · exact ⟨twin.response, rfl⟩
      · exact Response.acquire_turned k _ _ complete _ .abandon fun _ _ other => by cases other
  | noCompression =>
      rw [Response.start, Response.start, state]
      cases c.response.state with
      | mightCompress => exact ⟨Response.state_twin k _ _ twin.response .notCompressing, rfl⟩
      | _ => exact ⟨twin.response, rfl⟩

theorem resume_turned (twin : c.Twin k d) (i : Nat) (phase : Phase) (present : c.phases[i]? = some phase)
    (agrees : c.decides (.advance i) = true → c.response.Agrees d.response) :
    Response.Turned k (c.response.resume i phase) (d.response.resume i phase) := by
  obtain ⟨-, -, holder⟩ := Response.twin_fields k _ _ twin.response
  cases phase with
  | waiting errand =>
      rw [Response.resume, Response.resume, holder]
      by_cases mine : c.response.holder = some i
      · rw [if_pos mine, if_pos mine]
        refine Response.run_turned k _ _ twin.response errand ?_
        rintro last content rfl
        exact agrees (by simpa [decides, present] using mine)
      · rw [if_neg mine, if_neg mine]
        exact ⟨twin.response, rfl⟩
  | writing last content site =>
      obtain ⟨sent, result⟩ := Response.sent_twin k _ _ twin.response last content
      rw [Response.resume, Response.resume]
      dsimp only
      rw [result]
      exact Response.after_write_turned k _ _ sent last _ site
  | compressing w => exact Response.compress_turned k _ _ twin.response w
  | done result => exact ⟨twin.response, rfl⟩

theorem move_twin (twin : c.Twin k d) (m : Move) (agrees : c.decides m = true → c.response.Agrees d.response) :
    (c.move m).Twin k (d.move m) := by
  cases m with
  | begin call =>
      obtain ⟨response, phase⟩ := start_turned k c d twin call agrees
      simp only [move, begin, twin.phases]
      exact ⟨response, by rw [phase]⟩
  | advance i =>
      simp only [move, advance, twin.phases]
      cases present : c.phases[i]? with
      | none => exact twin
      | some phase =>
          obtain ⟨response, phase⟩ := resume_turned k c d twin i phase present agrees
          exact ⟨response, by dsimp only; rw [phase]⟩

end Calls

end Gateway.Gzip
