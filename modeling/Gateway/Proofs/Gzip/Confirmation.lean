import Gateway.Proofs.Gzip.Decision
import Gateway.Proofs.Gzip.Naming
import Gateway.Proofs.Gzip.Revalidation

set_option autoImplicit false

namespace Gateway

open Header (Value)

namespace Gzip

def shownTag (head : Head) : Option Text := (head.headers.get? .etag).bind Value.text?

theorem passed_tag (ensures : Prop) (vary : Option Value) (tag : Option Text) (plain final : Head)
    (passed : IsPassed ensures vary tag plain final) : shownTag final = (tag.map Tag.gzip).or (shownTag plain) := by
  have retagged := passed.tag
  cases tag with
  | none =>
      have same : final.headers.get? .etag = plain.headers.get? .etag := congrArg List.head? retagged
      rw [shownTag, same]
      rfl
  | some tag =>
      obtain ⟨value, only, read⟩ := List.map_eq_singleton_iff.mp retagged
      rw [shownTag, Header.Map.get?, only]
      exact read

namespace Response

variable {σ κ : Type} [Sink σ] [Deflate.Compressor κ] (r : Response (Logged σ) κ)

theorem opted_out_first (last : Bool) (content : Option Bytes) (state : r.state = .notCompressing)
    (free : r.holder = none)
    (quiet : r.queue = []) (unwritten : r.sink.log = []) :
    ∃ q result, settle 0 (r.dispatch 0 last (tidied content)).1 (r.dispatch 0 last (tidied content)).2 =
      some (q, result) ∧
      q.Passes r.completed r.head [(last, content)] := by
  refine ⟨_, _, r.passing_settles last (tidied content) state free, ?_⟩
  refine handed_on_passes r.completed r.head [] (r.lock 0) last content rfl quiet ?_ ?_
  · exact Logged.unwritten_upcoming r.sink unwritten
  · exact congrArg (List.map Delivery.writing) unwritten

theorem opted_out_opens (editable : Sink.Editable σ) (acts : List Act) (state : r.state = .notCompressing)
    (running : r.completed = false) (free : r.holder = none) (quiet : r.queue = []) (unwritten : r.sink.log = []) :
    Act.writings acts = [] ∧
      (∃ sink, Act.conduct r acts = { r with sink } ∧ sink.log = [] ∧ Sink.head sink = Act.opening r.head acts) ∨
    Act.writings acts ≠ [] ∧ (Act.conduct r acts).Passes false (Act.opening r.head acts) (Act.writings acts) := by
  induction acts generalizing r with
  | nil => exact .inl ⟨rfl, r.sink, rfl, unwritten, rfl⟩
  | cons act rest ih =>
      cases act with
      | edit edited =>
          have here : (Sink.setHead r edited).head = edited := editable r.sink.sink edited
          have later := ih (Sink.setHead r edited) state running free quiet unwritten
          rw [here] at later
          exact later
      | write last content =>
          obtain ⟨q, result, settled, passes⟩ := r.opted_out_first last content state free quiet unwritten
          rw [running] at passes
          have wrote : Act.apply r (.write last content) = q :=
            congrArg Prod.fst (call_settled r (.write last content) q result settled)
          refine .inr ⟨by simp [Act.writings, Act.writing?], ?_⟩
          rw [Act.conduct, List.foldl_cons, wrote]
          exact conduct_passes false _ [(last, content)] q rest passes

end Response

namespace Stage

section Confirming

variable (s : Stage) {σ κ : Type} [Sink σ] [Deflate.Compressor κ] (editable : Sink.Editable σ) (resources : Resources κ)
  (sink : Logged σ) (unwritten : sink.log = []) (tags : Text) (acts : List Act) (result : Except HttpError Unit)
  (asked : Act.writings acts ++ closing result ≠ [])

include editable unwritten asked

theorem opted_out_completes :
    (complete (Act.conduct { s.response sink resources (some tags) with state := .notCompressing } acts)
      result).1.sink.committed =
      some (Act.opening (Sink.head sink) acts) := by
  rcases Response.opted_out_opens { s.response sink resources (some tags) with state := .notCompressing } editable acts
    rfl rfl rfl rfl unwritten with ⟨silent, below, left, unwritten', opened⟩ | ⟨-, passes⟩
  · rw [silent, List.nil_append] at asked
    rw [left]
    cases result with
    | error e => exact absurd rfl asked
    | ok done =>
        have here : ({ s.response below resources (some tags) with state := .notCompressing, completed := true } :
            Response (Logged σ) κ).head = Act.opening (Sink.head sink) acts := opened
        obtain ⟨q, sent, settled, passes⟩ := Response.opted_out_first
          ({ s.response below resources (some tags) with state := .notCompressing, completed := true } :
            Response (Logged σ) κ) true none rfl rfl rfl unwritten'
        rw [here] at passes
        have ends :
            (complete ({ s.response below resources (some tags) with state := .notCompressing } :
              Response (Logged σ) κ) (.ok ())).1 = q := succeeded_settles _ rfl q sent settled
        exact (congrArg (·.sink.committed) ends).trans passes.committed
  · exact (complete_passes _ passes.completed _ _ passes result).2

variable (t : Text) (tag : shownTag (Act.opening (Sink.head sink) acts) = some t)

include tag

theorem not_modified_tag (status : (Act.opening (Sink.head sink) acts).status = 304) :
    ∃ final, (complete (Act.conduct (s.response sink resources (some tags)) acts) result).1.sink.committed =
      some final ∧
      shownTag final = some (if Text.occursIn (Tag.gzip t) tags then Tag.gzip t else t) := by
  have judged (last : Bool) (content : Option Bytes) :
      (s.response sink resources (some tags)).judge (Act.opening (Sink.head sink) acts) last content =
        .plain
          (Vary.ensure?
            ((s.response sink resources (some tags)).confirmTag (Act.opening (Sink.head sink) acts).headers)
          s.vary) := by
    rw [Response.judge, if_pos status]
    rfl
  have confirmed : (s.response sink resources (some tags)).confirmed (Act.opening (Sink.head sink) acts).headers =
      if Text.occursIn (Tag.gzip t) tags then some t else none := by
    rw [Response.confirmed, show ((Act.opening (Sink.head sink) acts).headers.get? .etag).bind Value.text? =
      some t from tag]
    rfl
  have passed := (s.response sink resources (some tags)).confirm_tag_passed (Act.opening (Sink.head sink) acts)
  obtain ⟨-, committed⟩ := s.conduct_completes editable resources sink unwritten _ _ acts result judged
  refine ⟨_, committed asked, (passed_tag _ _ _ _ _ passed).trans ?_⟩
  rw [confirmed, tag]
  split <;> rfl

-- Unless the response was opted out, the form of its tag for compressed bodies is told where it occurs in
-- what the client sent. In a list of tags this is where a member of the list matches the tag.
theorem confirms_matching (status : (Act.opening (Sink.head sink) acts).status = 304) (n : Nat) :
    let q := ((s.response sink resources (some tags)).perform (List.replicate n .noCompression)).1
    ∃ final, (complete (Act.conduct q acts) result).1.sink.committed = some final ∧
      shownTag final = some (if n = 0 ∧ Text.occursIn (Tag.gzip t) tags = true then Tag.gzip t else t) ∧
      ∀ pieces, tags = Text.join [','] pieces → (∀ piece ∈ pieces, Tag.IsPiece piece) → Tag.IsTag t →
        (shownTag final = some (Tag.gzip t) ↔ n = 0 ∧ ∃ member ∈ Tag.members pieces, Tag.Matches t member) := by
  have told : ∃ final, (complete (Act.conduct ((s.response sink resources (some tags)).perform
      (List.replicate n .noCompression)).1 acts) result).1.sink.committed = some final ∧
      shownTag final = some (if n = 0 ∧ Text.occursIn (Tag.gzip t) tags = true then Tag.gzip t else t) := by
    cases n with
    | zero =>
        obtain ⟨final, committed, shown⟩ :=
          s.not_modified_tag editable resources sink unwritten tags acts result asked t tag status
        exact ⟨final, committed, by simpa using shown⟩
    | succ n =>
        rw [Response.opted_out _ n rfl]
        refine ⟨_, s.opted_out_completes editable resources sink unwritten tags acts result asked, ?_⟩
        rw [tag, if_neg fun left => Nat.succ_ne_zero n left.1]
  obtain ⟨final, committed, shown⟩ := told
  refine ⟨final, committed, shown, ?_⟩
  rintro pieces rfl legal tagged
  have longer : t ≠ Tag.gzip t := fun same => Nat.ne_of_lt (Tag.gzip_longer t) (congrArg List.length same)
  rw [← Tag.occurs_matches t tagged pieces legal, shown, Option.some.injEq]
  split
  · rename_i occurs
    exact iff_of_true rfl occurs
  · rename_i missing
    exact iff_of_false longer missing

end Confirming

section Confirmed

def unmodified (t : String) : Logged Recorder :=
  ⟨.new { Head.empty with
    status := 304
    headers := .ofLines ((Value.ofText? t.toList).toList.map fun value => (.etag, value)) }, []⟩

def answering (t tags : String) : Response (Logged Recorder) Deflate.Encoder :=
  stage.1.response (unmodified t) stage.2 (some tags.toList)

theorem confirms_matching_listed :
    ∃ final, (complete (Act.conduct (answering "\"abc\"" "\"x, y\" , \"abc--gzip\",z") [.write true none])
      (.ok ())).1.sink.committed =
        some final ∧ shownTag final = some "\"abc--gzip\"".toList := by
  obtain ⟨final, committed, -, listed⟩ := stage.1.confirms_matching recorder_editable stage.2 (unmodified "\"abc\"") rfl
    "\"x, y\" , \"abc--gzip\",z".toList [.write true none] (.ok ()) nofun "\"abc\"".toList (by decide +kernel) rfl 0
  refine ⟨final, committed, ?_⟩
  have tagged : Tag.IsTag "\"abc\"".toList := .quoted [] "abc".toList (.inl rfl) (by decide)
  have legal : ∀ piece ∈ ["\"x, y\" ".toList, " \"abc--gzip\"".toList, ['z']], Tag.IsPiece piece := by
    rw [List.forall_mem_cons, List.forall_mem_cons, List.forall_mem_singleton]
    exact ⟨.inr (.quoted [] "x, y".toList (.inl rfl) (by decide)),
      .inr (.quoted [] "abc--gzip".toList (.inl rfl) (by decide)),
      .inr (.bare ['z'] (by decide) (by decide) nofun rfl)⟩
  exact (listed _ rfl legal tagged).mpr ⟨rfl, _, by decide, .same⟩

-- The tag that is told need not be one that the client sent.
theorem unlisted_told :
    (∃ final, (complete (Act.conduct (answering "1" "v21--gzip") [.write true none])
      (.ok ())).1.sink.committed = some final ∧
      shownTag final = some "1--gzip".toList) ∧
    (∃ final, (complete (Act.conduct (answering "\"abc\"" "W/\"abc--gzip\"") [.write true none])
      (.ok ())).1.sink.committed =
      some final ∧ shownTag final = some "\"abc--gzip\"".toList) ∧
    "1--gzip".toList ∉ Tag.members ["v21--gzip".toList] ∧
    "\"abc--gzip\"".toList ∉ Tag.members ["W/\"abc--gzip\"".toList] := by
  have told (t tags : String) := stage.1.not_modified_tag recorder_editable stage.2 (unmodified t) rfl tags.toList
    [.write true none] (.ok ()) nofun t.toList
  exact ⟨told "1" "v21--gzip" (by decide +kernel) rfl, told "\"abc\"" "W/\"abc--gzip\"" (by decide +kernel)
    rfl, by decide, by decide⟩

end Confirmed

end Stage

end Gzip

end Gateway
