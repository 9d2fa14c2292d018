import Gateway.Proofs.Gzip.Commitment
import Gateway.Proofs.Gzip.Delivery
import Gateway.Proofs.Gzip.Heads
import Gateway.Proofs.Gzip.Passing

set_option autoImplicit false

namespace Gateway

inductive Ends : List Writing → Prop where
  | last (content : Option Bytes) : Ends [(true, content)]
  | more (content : Option Bytes) (rest : List Writing) (ends : Ends rest) : Ends ((false, content) :: rest)

def Writing.call (w : Writing) : Gzip.Call := .write w.1 w.2

namespace Gzip.Response

variable {σ κ : Type} [Sink σ]

section Deciding

variable (r : Response (Logged σ) κ)

omit [Sink σ] in
theorem compressible_tidied (head : Head) (last : Bool) (content : Option Bytes) :
    r.IsCompressible head last (tidied content) ↔ r.IsCompressible head last content := by
  have same : bodyLength head.headers last (tidied content) = bodyLength head.headers last content := by
    rw [bodyLength, bodyLength, tidied, filter_octets]
  constructor
  · exact fun tidy => ⟨tidy.toIsEligible, same ▸ tidy.length, tidy.left⟩
  · exact fun given => ⟨given.toIsEligible, same.symm ▸ given.length, given.left⟩

variable [Deflate.Compressor κ]

theorem first_commits (last : Bool) (content : Option Bytes) (state : r.state = .mightCompress)
    (free : r.holder = none) :
    r.start 0 (.write last content) = ({ r with state := .committing }.lock 0).commit last (tidied content) := by
  rw [start, dispatch, state]
  dsimp only
  exact acquire_free ({ r with state := .committing } : Response (Logged σ) κ) 0 _ free

theorem opt_out (n : Nat) (state : r.state = .notCompressing) :
    (r.perform (List.replicate n .noCompression)).1 = r := by
  induction n with
  | zero => rfl
  | succ n ih =>
      have called : r.call .noCompression = (r, .ok ()) := by
        apply call_settled
        rw [start, state]
        exact settle_done 0 r _
      rw [List.replicate_succ, perform, called]
      exact ih

theorem opted_out (n : Nat) (state : r.state = .mightCompress) :
    (r.perform (List.replicate (n + 1) .noCompression)).1 = { r with state := .notCompressing } := by
  have called : r.call .noCompression = ({ r with state := .notCompressing }, .ok ()) := by
    apply call_settled
    rw [start, state]
    exact settle_done 0 _ _
  rw [List.replicate_succ, perform, called]
  exact opt_out _ n rfl

end Deciding

section Relaying

variable [Deflate.Compressor κ]

structure Relayed (s : Logged σ) (writes : List Writing) (p : Response (Logged σ) κ × List Sent) : Prop where
  sent : p.2 = List.replicate writes.length (.ok ())
  log : p.1.sink.log.map Delivery.writing = s.log.map Delivery.writing ++ writes.map Writing.tidy
  committed : p.1.sink.committed = some s.upcoming

variable (r : Response (Logged σ) κ) (content : Option Bytes)

omit [Deflate.Compressor κ] in
theorem relayed_last : Relayed r.sink [(true, content)] (r.handedOn true (tidied content), [.ok ()]) :=
  ⟨rfl, r.handed_on_writings true content, r.handed_on_committed true (tidied content)⟩

omit [Deflate.Compressor κ] in
theorem relayed_more (rest : List Writing) (p : Response (Logged σ) κ × List Sent)
    (later : Relayed (r.handedOn false (tidied content)).sink rest p) :
    Relayed r.sink ((false, content) :: rest) (p.1, .ok () :: p.2) := by
  refine ⟨congrArg (Except.ok () :: ·) later.sent, ?_, ?_⟩
  · rw [later.log, r.handed_on_writings, List.append_assoc]
    rfl
  · exact later.committed.trans (congrArg some (Logged.write_upcoming r.sink false (tidied content)))

structure Hands (sound : σ → Prop) (r : Response (Logged σ) κ) : Prop where
  state : r.state = .notCompressing
  free : r.holder = none
  quiet : r.queue = []
  here : sound r.sink.sink

variable (sound : σ → Prop) (reliable : Sink.Reliable sound)

include reliable

omit [Deflate.Compressor κ] in
theorem handed_on_hands (quiet : r.queue = []) (here : sound r.sink.sink) :
    (r.handedOn false (tidied content)).Hands sound := by
  obtain ⟨accepted, -, stays⟩ := logged_write sound reliable r.sink false (tidied content) here
  obtain ⟨free, quiet⟩ := r.handed_on_quiet false (tidied content) quiet
  refine ⟨?_, free, quiet, stays rfl⟩
  rw [handed_on_state, accepted]
  rfl

theorem hands_call (hands : r.Hands sound) (last : Bool) :
    r.call (.write last content) = ((r.lock 0).handedOn last (tidied content), .ok ()) := by
  have settled := r.passing_settles last (tidied content) hands.state hands.free
  rw [(logged_write sound reliable r.sink last (tidied content) hands.here).1] at settled
  exact call_settled r (.write last content) _ _ settled

theorem relays (writes : List Writing) (ends : Ends writes) (p : Response (Logged σ) κ) (quiet : r.queue = [])
    (here : sound r.sink.sink)
    (called : ∀ w, writes.head? = some w → p.call w.call = (r.handedOn w.1 (tidied w.2), .ok ())) :
    Relayed r.sink writes (p.perform (writes.map Writing.call)) := by
  induction ends generalizing p r with
  | last content =>
      rw [List.map_singleton, perform, called _ rfl]
      exact r.relayed_last content
  | more content rest ends ih =>
      rw [List.map_cons, perform, called _ rfl]
      have next := r.handed_on_hands content sound reliable quiet here
      refine r.relayed_more content rest _ ?_
      exact ih ((r.handedOn false (tidied content)).lock 0) _ next.quiet next.here
        fun w _ => hands_call _ w.2 sound reliable next w.1

theorem first_called (fresh : r.IsFresh) (here : sound r.sink.sink) (last : Bool) (headers : Header.Map)
    (plain : r.judge r.head last (tidied content) = .plain headers) :
    r.call (.write last content) = ((r.declined headers).handedOn last (tidied content), .ok ()) := by
  have settled := r.plain_settles last (tidied content) fresh.state fresh.holder headers plain
  rw [(logged_write sound reliable (r.declined headers).sink last (tidied content)
    (reliable.edits _ _ here)).1] at settled
  exact call_settled r (.write last content) _ _ settled

end Relaying

structure GoesThrough (ensures : Prop) (vary : Option Header.Value) (tag : Option Text)
    (plain : Head) (writes : List Writing)
    (p : Response (Logged σ) κ × List Sent) : Prop where
  sent : p.2 = List.replicate writes.length (.ok ())
  log : p.1.sink.log.map Delivery.writing = writes.map Writing.tidy
  head : ∃ final, p.1.sink.committed = some final ∧ IsPassed ensures vary tag plain final

theorem handing_uncompressed : State.notCompressing ≠ .compressing := by decide

section Decision

variable [Deflate.Compressor κ] (r : Response (Logged σ) κ) (fresh : r.IsFresh)

include fresh

theorem coded_opens (editable : Sink.Editable σ) (unwritten : r.sink.log = []) (last : Bool) (content : Option Bytes)
    (headers : Header.Map) (entry : Deflate.Entry κ) (engines : Deflate.Pool κ)
    (coded : r.judge r.head last (tidied content) = .coded headers entry engines) :
    (r.start 0 (.write last content)).1.Opens { r.head with headers } (r.start 0 (.write last content)).2 := by
  rw [r.first_commits last content fresh.state fresh.holder]
  exact commit_opens ({ r with state := .committing }.lock 0) last (tidied content) headers entry
    engines editable unwritten
    fresh.buffer coded

theorem plain_uncompressed (last : Bool) (content : Option Bytes) (headers : Header.Map)
    (plain : r.judge r.head last (tidied content) = .plain headers) :
    (r.start 0 (.write last content)).1.state ≠ .compressing := by
  have declines := commit_plain (({ r with state := .committing } : Response (Logged σ) κ).lock 0) last (tidied content)
    headers plain
  rw [r.first_commits last content fresh.state fresh.holder, declines]
  exact handing_uncompressed

variable (sound : σ → Prop) (reliable : Sink.Reliable sound) (here : sound r.sink.sink)

include reliable here

variable (unwritten : r.sink.log = [])

include unwritten

theorem opted_out_passed (writes : List Writing) (ends : Ends writes) (ensures : Prop)
    (never : ¬ ensures) : GoesThrough ensures r.vary none r.head writes
      (({ r with state := .notCompressing } : Response (Logged σ) κ).perform (writes.map Writing.call)) := by
  have hands : ({ r with state := .notCompressing } : Response (Logged σ) κ).Hands sound :=
    ⟨rfl, fresh.holder, fresh.queue, here⟩
  have relayed :=
    relays (({ r with state := .notCompressing } : Response (Logged σ) κ).lock 0) sound reliable writes ends _
    fresh.queue here fun w _ => hands_call _ w.2 sound reliable hands w.1
  refine ⟨relayed.sent, relayed.log.trans ?_, r.head, relayed.committed.trans ?_, ?_⟩
  · exact congrArg (·.map Delivery.writing ++ _) unwritten
  · exact congrArg some (Logged.unwritten_upcoming r.sink unwritten)
  · exact passed_congr _ _ _ _ _ _ (iff_of_false id never) (unedited_passed r.vary r.head)

theorem plain_passed (editable : Sink.Editable σ) (first : Writing) (rest : List Writing) (ends : Ends (first :: rest))
    (headers : Header.Map) (plain : r.judge r.head first.1 (tidied first.2) = .plain headers) (ensures : Prop)
    (tag : Option Text) (passed : IsPassed ensures r.vary tag r.head { r.head with headers }) :
    GoesThrough ensures r.vary tag r.head (first :: rest) (r.perform ((first :: rest).map Writing.call)) := by
  have relayed :=
    relays (r.declined headers) sound reliable _ ends r fresh.queue (reliable.edits _ _ here) fun w top => by
    obtain rfl : first = w := Option.some.inj top
    exact r.first_called first.2 sound reliable fresh here first.1 headers plain
  refine ⟨relayed.sent, relayed.log.trans ?_, { r.head with headers }, relayed.committed.trans ?_, passed⟩
  · exact congrArg (·.map Delivery.writing ++ _) unwritten
  · exact congrArg some (Logged.edited_upcoming editable r.sink _ unwritten)

-- Which responses are compressed is decided by the first write, on the head that there is then and on
-- whether the response was opted out. A compressed one has its head committed by the second step of
-- that write, whatever else is going on, and any other one is handed on as it is written.
theorem first_write_decides (editable : Sink.Editable σ) (faultless : Faultless κ) (n : Nat)
    (first : Writing) (rest : List Writing) (ends : Ends (first :: rest)) :
    let q := (r.perform (List.replicate n .noCompression)).1
    let isCompressed := (q.start 0 first.call).1.state = .compressing
    (isCompressed ↔ n = 0 ∧ r.IsCompressible r.head first.1 first.2) ∧
    (isCompressed → ∃ final, IsCoded r.vary r.head final ∧ ∀ moves,
      ((Calls.new q).play
        (.begin first.call :: .advance 0 :: .advance 0 :: moves)).response.sink.committed = some final) ∧
    (¬ isCompressed → GoesThrough (n = 0 ∧ (r.head.status = 304 ∨ IsEligible r.policy r.head)) r.vary
      (if n = 0 ∧ r.head.status = 304 then r.confirmed r.head.headers else none) r.head (first :: rest)
      (q.perform ((first :: rest).map Writing.call))) := by
  cases n with
  | succ n =>
      have never {P : Prop} : ¬ (n + 1 = 0 ∧ P) := fun left => Nat.succ_ne_zero n left.1
      have uncompressed :
          (({ r with state := .notCompressing } : Response (Logged σ) κ).start 0 first.call).1.state ≠
            .compressing := by
        rw [Writing.call, start, dispatch, fresh.holder]
        exact handing_uncompressed
      rw [r.opted_out n fresh.state, if_neg never]
      refine ⟨iff_of_false uncompressed never, fun compressed => absurd compressed uncompressed, fun _ => ?_⟩
      exact r.opted_out_passed fresh sound reliable here unwritten _ ends _ never
  | zero =>
      have same : (r.perform (List.replicate 0 .noCompression)).1 = r := rfl
      have tidy := r.compressible_tidied r.head first.1 first.2
      rw [same]
      simp only [true_and]
      rcases r.judge_cases r.head first.1 (tidied first.2) with
        ⟨compressible, headers, entry, engines, coded, final⟩ | ⟨incompressible, headers, plain, final⟩
      · have opens := r.coded_opens fresh editable unwritten first.1 first.2 headers entry engines coded
        refine ⟨iff_of_true opens.state (tidy.mp compressible), fun _ => ⟨_, final, fun moves => ?_⟩,
          fun never => absurd opens.state never⟩
        exact opens_commits _ _ faultless _ opens moves
      · have uncompressed := r.plain_uncompressed fresh first.1 first.2 headers plain
        refine ⟨iff_of_false uncompressed fun compressible => incompressible (tidy.mpr compressible),
          fun compressed => absurd compressed uncompressed, fun _ => ?_⟩
        exact r.plain_passed fresh sound reliable here unwritten editable first rest ends headers plain _ _ final

end Decision

def greeting : List Writing := [(false, some [104]), (true, none)]

theorem first_write_decides_greeting :
    (tight.start 0 (.write false (some [104]))).1.state = .compressing ∧
    (∃ final, (final.headers.getAll .contentEncoding).map Header.Value.text? = [some "gzip".toList] ∧ ∀ moves,
      ((Calls.new tight).play
        (.begin (.write false (some [104])) :: .advance 0 :: .advance 0 :: moves)).response.sink.committed =
        some final) ∧
    ((tight.perform [.noCompression]).1.perform (greeting.map Writing.call)).1.sink.log.map
      Delivery.writing = greeting := by
  have ends : Ends greeting := .more _ _ (.last none)
  have fresh : tight.IsFresh := ⟨rfl, rfl, rfl, rfl, rfl, rfl⟩
  have decides (n : Nat) :=
    tight.first_write_decides fresh Recorder.IsOpen recorder_reliable ⟨rfl, rfl⟩ rfl recorder_editable
    encoder_faultless n (false, some [104]) [(true, none)] ends
  obtain ⟨compressed, coded, -⟩ := decides 0
  obtain ⟨declined, -, handed⟩ := decides 1
  have eligible : IsEligible tight.policy tight.head := ⟨by decide, nofun, rfl⟩
  have state := compressed.mpr ⟨rfl, eligible, fun _ _ => Nat.zero_le _, Nat.zero_lt_one⟩
  obtain ⟨final, amended, committed⟩ := coded state
  refine ⟨state, ⟨final, amended.coding, committed⟩, ?_⟩
  exact (handed fun left => Nat.one_ne_zero (declined.mp left).1).log

def confirming : Response (Logged Recorder) Deflate.Encoder :=
  .new ⟨.new { Head.empty with status := 304 }, []⟩ ⟨[], 0⟩ ⟨.new 1 6, .standard⟩

theorem opted_out_unvaried :
    ∃ final, ((confirming.perform [.noCompression]).1.perform [.write true none]).1.sink.committed = some final ∧
      final.status = 304 ∧
      final.headers.getAll .vary ≠ (Vary.ensure? confirming.head.headers confirming.vary).getAll .vary := by
  have fresh : confirming.IsFresh := new_fresh _ _ _
  have passed :=
    confirming.opted_out_passed fresh Recorder.IsOpen recorder_reliable ⟨rfl, rfl⟩ rfl _ (.last none) False id
  rw [← confirming.opted_out 0 rfl] at passed
  obtain ⟨final, committed, same⟩ := passed.head
  refine ⟨final, committed, same.status, ?_⟩
  rw [same.unensured id]
  decide

end Gzip.Response

end Gateway
