import Gateway.Proofs.Gzip.Heads
import Gateway.Proofs.Gzip.Passing
import Gateway.Proofs.Gzip.Rewriting

set_option autoImplicit false

namespace Gateway

open Header (Value)

namespace Gzip

namespace Stage

section Completing

variable {σ κ : Type} [Sink σ] [Deflate.Compressor κ] (r : Response (Logged σ) κ) (unended : r.completed = false)

include unended

theorem succeeded_settles (q : Response (Logged σ) κ) (result : Sent)
    (settled : Response.settle 0 (({ r with completed := true } : Response (Logged σ) κ).dispatch 0 true none).1
      (({ r with completed := true } : Response (Logged σ) κ).dispatch 0 true none).2 = some (q, result)) :
    (complete r (.ok ())).1 = q := by
  have called := Response.call_settled r .succeeded q result (by
    simp only [Response.start, unended, Bool.false_eq_true, if_false]
    exact settled)
  rw [complete, called]

theorem failed_sink (free : r.holder = none) (e : HttpError) : (complete r (.error e)).1.sink = r.sink := by
  have abandoned : r.start 0 .failed =
      (({ r with completed := true } : Response (Logged σ) κ).lock 0).finish.leave (.ok ()) := by
    simp only [Response.start, unended, Bool.false_eq_true, if_false]
    exact Response.acquire_free ({ r with completed := true } : Response (Logged σ) κ) 0 .abandon free
  have called :=
    Response.call_settled r .failed
      (({ r with completed := true } : Response (Logged σ) κ).lock 0).finish.unlock
    (.ok ()) (by rw [abandoned]; exact Response.settle_done 0 _ _)
  rw [complete, called]
  rfl

def closing (result : Except HttpError Unit) : List Writing := if result.isOk then [(true, none)] else []

theorem complete_passes (head : Head) (asked : List Writing) (passes : r.Passes false head asked)
    (result : Except HttpError Unit) :
    Relays (asked ++ closing result) (complete r result).1.sink.log ∧
    (complete r result).1.sink.committed = some head := by
  cases result with
  | ok done =>
      have passes' : ({ r with completed := true } : Response (Logged σ) κ).Passes true head asked :=
        { passes with completed := rfl }
      obtain ⟨q, result, settled, later⟩ := Response.passes_settles true head asked _ passes' true none
      rw [succeeded_settles r unended q result settled]
      exact ⟨q.passes_relays true head _ later, later.committed⟩
  | error e =>
      rw [failed_sink r unended passes.free e, closing]
      exact ⟨(List.append_nil asked).symm ▸ r.passes_relays false head asked passes, passes.committed⟩

end Completing

variable (s : Stage) (request : Request)

section Confirming

variable {σ κ : Type} [Sink σ] [Deflate.Compressor κ] (editable : Sink.Editable σ) (resources : Resources κ)
  (sink : Logged σ) (unwritten : sink.log = []) (tags : Option Text) (headers : Header.Map)

include editable unwritten

theorem conduct_completes (acts : List Act) (result : Except HttpError Unit)
    (plain : ∀ last content,
      (s.response sink resources tags).judge (Act.opening (Sink.head sink) acts) last content = .plain headers) :
    let q := (complete (Act.conduct (s.response sink resources tags) acts) result).1
    Relays (Act.writings acts ++ closing result) q.sink.log ∧
    (Act.writings acts ++ closing result ≠ [] →
      q.sink.committed = some { Act.opening (Sink.head sink) acts with headers }) := by
  have fresh : (s.response sink resources tags).IsFresh := ⟨rfl, rfl, rfl, rfl, rfl, rfl⟩
  rcases (s.response sink resources tags).conduct_opens headers editable acts fresh unwritten plain with
    ⟨silent, below, left, unwritten', opened⟩ | ⟨-, passes⟩
  · rw [silent, left, List.nil_append]
    cases result with
    | ok done =>
        have here : ({ s.response below resources tags with completed := true } : Response (Logged σ) κ).head =
            Act.opening (Sink.head sink) acts := opened
        obtain ⟨q, sent, settled, passes⟩ := Response.first_passes
          ({ s.response below resources tags with completed := true } : Response (Logged σ) κ)
            headers editable true none
          rfl rfl rfl unwritten' (by rw [here]; exact plain true none)
        rw [here] at passes
        have ends :
            (complete ({ s.response sink resources tags with sink := below } : Response (Logged σ) κ)
              (.ok ())).1 = q :=
          succeeded_settles _ rfl q sent settled
        dsimp only
        rw [ends]
        exact ⟨q.passes_relays true _ _ passes, fun _ => passes.committed⟩
    | error e =>
        have ends :=
          failed_sink ({ s.response sink resources tags with sink := below } : Response (Logged σ) κ) rfl rfl e
        dsimp only
        rw [ends]
        refine ⟨⟨[], [], rfl, ?_, fun some_left => absurd rfl some_left⟩, fun some_left => absurd rfl some_left⟩
        rw [unwritten']
        rfl
  · obtain ⟨relays, committed⟩ := complete_passes _ passes.completed _ _ passes result
    exact ⟨relays, fun _ => committed⟩

end Confirming

-- The client names the tag of its compressed copy. The handler sees the tag of the plain body; where it
-- answers that this one is still good, the client is told the tag that it named, and all that the
-- handler wrote.
theorem revalidates (compressed : s.compresses request = true) (t : Text) (unmarked : Tag.isMarked t = false)
    (named : (request.headers.getAll .ifNoneMatch).map Value.text? = [some (Tag.gzip t)]) {α σ κ : Type} [Sink σ]
    [Deflate.Compressor κ] (editable : Sink.Editable σ) (inner : Handler α) (resources : Resources κ) (a : α)
    (sink : Logged σ) (unwritten : sink.log = []) :
    let o := inner.handle a (s.shown request) (s.response sink resources (some (Tag.gzip t)))
    let w := (s.wrap inner).handle (resources, a) request sink
    (∀ m : Header.Map, (m.get? .etag).bind Value.text? = some t → Retagged m (Response.compressedHeaders m) (some t)) ∧
    ((s.shown request).headers.getAll .ifNoneMatch).map Value.text? = [some t] ∧
    w.state.2 = o.state ∧ w.request = o.request ∧
    ∀ acts, o.sink = Act.conduct (s.response sink resources (some (Tag.gzip t))) acts →
      let opened := Act.opening (Sink.head sink) acts
      let asked := Act.writings acts ++ closing o.result
      opened.status = 304 → (opened.headers.get? .etag).bind Value.text? = some t →
      Relays asked w.sink.log ∧
      (asked ≠ [] → ∃ final, w.sink.committed = some final ∧ IsPassed True s.vary (some t) opened final) := by
  obtain ⟨line, lines, read⟩ := List.map_eq_singleton_iff.mp named
  have marked : markedTags request = some (Tag.gzip t) := by
    rw [markedTags, Header.Map.get?, lines, List.head?_cons, Option.bind_some, read]
    exact Option.filter_some_pos (Tag.gzip_marked t)
  have given := s.wrap_compressing request compressed inner resources a sink
  rw [marked] at given
  dsimp only
  refine ⟨?_, ?_, by rw [given], by rw [given], ?_⟩
  · intro m tag
    have retags := Response.compressed_retags m
    rwa [tag] at retags
  · obtain ⟨value, again, seen⟩ := s.shown_marked request compressed _ marked
    rw [Tag.strip_gzip_unmarked t unmarked] at again
    have only : (s.shown request).headers.getAll .ifNoneMatch = [value] := by
      rw [seen]
      exact (Header.Map.getAll_insert request.headers _ _ value).trans (if_pos rfl)
    rw [only, List.map_singleton, again]
  · intro acts conducted status tag
    have sunk : ((s.wrap inner).handle (resources, a) request sink).sink =
        (complete (Act.conduct (s.response sink resources (some (Tag.gzip t))) acts)
          (inner.handle a (s.shown request) (s.response sink resources (some (Tag.gzip t)))).result).1.sink := by
      rw [given, ← conducted]
    have judged (last : Bool) (content : Option Bytes) :
        (s.response sink resources (some (Tag.gzip t))).judge (Act.opening (Sink.head sink) acts) last content =
          .plain (Vary.ensure? ((s.response sink resources (some (Tag.gzip t))).confirmTag
            (Act.opening (Sink.head sink) acts).headers) s.vary) := by
      rw [Response.judge, if_pos status]
      rfl
    have confirmed : (s.response sink resources (some (Tag.gzip t))).confirmed
        (Act.opening (Sink.head sink) acts).headers = some t := by
      have listed : Text.occursIn (Tag.gzip t) (Tag.gzip t) = true := (Text.occurs_iff _ _).mpr List.infix_rfl
      rw [Response.confirmed, tag]
      exact if_pos listed
    have passed :=
      (s.response sink resources (some (Tag.gzip t))).confirm_tag_passed (Act.opening (Sink.head sink) acts)
    rw [confirmed] at passed
    obtain ⟨relays, committed⟩ := s.conduct_completes editable resources sink unwritten _ _ acts _ judged
    rw [sunk]
    exact ⟨relays, fun some_asked => ⟨_, committed some_asked, passed⟩⟩

section Confirmed

def confirmation : Reply := ⟨304, .http11, .ofLines [(.etag, ⟨Text.utf8 "\"v1\"".toList, by decide⟩)], []⟩

theorem revalidates_unchanged :
    let w := (stage.1.wrap (Handler.ofAnswers fun _ => .ok confirmation)).handle (stage.2, ()) (tagged ["\"v1--gzip\""])
      (⟨.new .empty, []⟩ : Logged Recorder)
    ((stage.1.shown (tagged ["\"v1--gzip\""])).headers.getAll .ifNoneMatch).map Value.text? = [some "\"v1\"".toList] ∧
    ∃ final, w.sink.committed = some final ∧ final.status = 304 ∧
      (final.headers.getAll .etag).map Value.text? = [some "\"v1--gzip\"".toList] ∧
      final.headers.getAll .contentEncoding = [] := by
  have compressed : stage.1.compresses (tagged ["\"v1--gzip\""]) = true := by decide +kernel
  obtain ⟨-, seen, -, -, confirms⟩ := stage.1.revalidates (tagged ["\"v1--gzip\""]) compressed "\"v1\"".toList
    (by decide) (by decide +kernel) recorder_editable (Handler.ofAnswers fun _ => .ok confirmation) stage.2 ()
    ⟨.new .empty, []⟩ rfl
  obtain ⟨-, committed⟩ := confirms [.edit (confirmation.headOn .empty), .write true none] rfl rfl (by decide +kernel)
  obtain ⟨final, sent, passed⟩ := committed nofun
  refine ⟨seen, final, sent, passed.status, passed.tag.trans (by decide), ?_⟩
  exact (passed.others .contentEncoding (by decide)).trans (by decide +kernel)

end Confirmed

end Stage

end Gzip

end Gateway
