import Mathlib.Data.List.Forall2
import Gateway.Fixture
import Gateway.Proofs.Gzip.Negotiation
import Gateway.Proofs.Gzip.Tag

set_option autoImplicit false

namespace Gateway

open Header (Value)

namespace Gzip

namespace Tag

open Vary (names IsItem)

def plain (tag : Text) : Text := Text.trim (strip tag)

-- A tag of a compressed body gives way to the tag that it was made of; any other stays.
def Restores (tag seen : Text) : Prop :=
  IsItem seen ∧ gzip seen = tag ∨ seen = tag ∧ ∀ other, IsItem other → gzip other ≠ tag

def IsRestorable (tag : Text) : Prop :=
  isMarked tag = false ∨ ∃ other, IsItem other ∧ isMarked other = false ∧ gzip other = tag

theorem split_strip (s : Text) : Text.split ',' (strip s) = (Text.split ',' s).map strip := by
  have clean (part : Text) (none : ',' ∉ part) : ',' ∉ strip part := fun some => none ((strip_sublist part).subset some)
  induction s using Text.split_induction ',' with
  | alone part none => rw [Text.split_clean ',' _ (clean part none), Text.split_clean ',' part none, List.map_singleton]
  | more part rest none ih =>
      have across : strip (part ++ ',' :: rest) = strip part ++ ',' :: strip rest := by
        rw [strip_append part _ (apart_foreign_cons part rest ',' (by decide)), strip_foreign_cons ',' rest (by decide)]
      rw [across, Text.split_append ',' _ _ (clean part none), Text.split_append ',' part rest none, ih, List.map_cons]

theorem blank_foreign (c : Char) (blank : Text.isBlank c = true) : c ∉ mark := by
  have visible : mark.all (!Text.isBlank ·) = true := by decide
  intro member
  have shown := List.all_eq_true.mp visible c member
  rw [blank] at shown
  cases shown

theorem plain_trim (s : Text) : plain (Text.trim s) = plain s := by
  obtain ⟨before, after, whole, blank, blank'⟩ := Text.framed_trim s
  rw [plain, plain]
  conv_rhs => rw [whole, strip_foreign before _ after (fun c member => blank_foreign c (blank c member))
    fun c member => blank_foreign c (blank' c member)]
  exact (Text.trim_framed before _ after blank blank').symm

theorem names_strip (s : Text) : names (strip s) = ((names s).map plain).filter (!·.isEmpty) := by
  have parts : (Text.split ',' s).map (Text.trim ∘ strip) = ((Text.split ',' s).map Text.trim).map plain := by
    rw [List.map_map]
    exact List.map_congr_left fun part _ => (plain_trim part).symm
  rw [names, names, split_strip, List.map_map, parts]
  generalize (Text.split ',' s).map Text.trim = items
  rw [List.filter_map, List.filter_map, List.filter_filter]
  refine congrArg (List.map plain) (List.filter_congr fun item _ => ?_)
  cases item with
  | nil =>
      rw [Function.comp_apply, plain, strip_nil]
      rfl
  | cons c rest => exact (Bool.and_true _).symm

theorem plain_unmarked (tag : Text) (item : IsItem tag) (unmarked : isMarked tag = false) : plain tag = tag := by
  rw [plain, unmarked_strip tag unmarked, item.trimmed]

theorem plain_gzip (tag : Text) : plain (gzip tag) = plain tag := by
  rw [plain, strip_gzip, plain]

theorem trim_shorter (s : Text) : (Text.trim s).length ≤ s.length := by
  obtain ⟨before, after, whole, -, -⟩ := Text.framed_trim s
  conv_rhs => rw [whole]
  simp only [List.length_append]
  omega

theorem plain_shorter (tag : Text) (marked : isMarked tag = true) : (plain tag).length < tag.length :=
  Nat.lt_of_le_of_lt (trim_shorter _) (marked_shorter tag marked)

theorem restores_iff (tag : Text) (item : IsItem tag) : Restores tag (plain tag) ↔ IsRestorable tag := by
  constructor
  · rintro (⟨item', made⟩ | ⟨same, -⟩)
    · have again : plain (plain tag) = plain tag := (plain_gzip (plain tag)).symm.trans (congrArg plain made)
      refine .inr ⟨plain tag, item', ?_, made⟩
      rw [Bool.eq_false_iff]
      intro marked
      exact absurd (congrArg List.length again) (Nat.ne_of_lt (plain_shorter _ marked))
    · left
      rw [Bool.eq_false_iff]
      intro marked
      exact absurd (congrArg List.length same) (Nat.ne_of_lt (plain_shorter _ marked))
  · rintro (unmarked | ⟨other, item', unmarked, rfl⟩)
    · refine .inr ⟨plain_unmarked tag item unmarked, ?_⟩
      rintro other - rfl
      exact Bool.false_ne_true (unmarked.symm.trans (gzip_marked other))
    · left
      rw [plain_gzip, plain_unmarked other item' unmarked]
      exact ⟨item', rfl⟩

end Tag

namespace Stage

open Vary (names)

def tags (r : Request) : List Text := (r.headers.getAll .ifNoneMatch).flatMap fun value => names value.latin1

def laterTags (r : Request) : List Text := (r.headers.getAll .ifNoneMatch).tail.flatMap fun value => names value.latin1

theorem text_latin1 (value : Value) (s : Text) (read : value.text? = some s) : value.latin1 = s := by
  by_cases visible : value.bytes.all Header.isVisible = true
  · rw [Value.text?, if_pos visible] at read
    exact Option.some.inj read
  · rw [Value.text?, if_neg visible] at read
    cases read

variable (s : Stage) (r : Request)

theorem marked_first (text : Text) (marked : markedTags r = some text) :
    Tag.isMarked text = true ∧
      ∃ value later, r.headers.getAll .ifNoneMatch = value :: later ∧ value.text? = some text := by
  obtain ⟨read, marks⟩ := Option.filter_eq_some_iff.mp marked
  obtain ⟨value, first, text⟩ := Option.bind_eq_some_iff.mp read
  obtain ⟨later, lines⟩ := List.head?_eq_some_iff.mp first
  exact ⟨marks, value, later, lines, text⟩

theorem tags_first (text : Text) (marked : markedTags r = some text) : tags r = names text ++ laterTags r := by
  obtain ⟨-, value, later, lines, read⟩ := marked_first r text marked
  rw [tags, laterTags, lines, List.flatMap_cons, text_latin1 value text read, List.tail_cons]

theorem shown_marked (compressed : s.compresses r = true) (text : Text) (marked : markedTags r = some text) :
    ∃ value, value.text? = some (Tag.strip text) ∧ s.shown r = r.withHeaders (r.headers.insert .ifNoneMatch value) := by
  obtain ⟨-, first, _, -, read⟩ := marked_first r text marked
  obtain ⟨value, written, again⟩ := Value.of_text_readable (Tag.strip text) fun c member =>
    Value.text_readable first text read c ((Tag.strip_sublist text).subset member)
  refine ⟨value, again, ?_⟩
  rw [shown, if_pos compressed, unmark, marked, Option.bind_some, written]

theorem shown_unmarked (compressed : s.compresses r = true) (unmarked : markedTags r = none) : s.shown r = r := by
  rw [shown, if_pos compressed, unmark, unmarked]
  rfl

theorem tags_marked (compressed : s.compresses r = true) (text : Text) (marked : markedTags r = some text) :
    tags (s.shown r) = ((names text).map Tag.plain).filter (!·.isEmpty) := by
  obtain ⟨value, read, given⟩ := s.shown_marked r compressed text marked
  have lines : (s.shown r).headers.getAll .ifNoneMatch = [value] := by
    rw [given]
    exact (Header.Map.getAll_insert r.headers _ _ value).trans (if_pos rfl)
  rw [tags, lines, List.flatMap_singleton, text_latin1 value _ read, Tag.names_strip]

theorem restored_iff (first later : List Text) (items : ∀ tag ∈ first, Vary.IsItem tag) :
    List.Forall₂ Tag.Restores (first ++ later) ((first.map Tag.plain).filter (!·.isEmpty)) ↔
      later = [] ∧ ∀ tag ∈ first, Tag.IsRestorable tag := by
  constructor
  · intro related
    have lengths := related.length_eq
    have fewer := List.length_filter_le (fun tag : Text => !tag.isEmpty) (first.map Tag.plain)
    rw [List.length_append] at lengths
    rw [List.length_map] at fewer
    obtain rfl : later = [] := List.eq_nil_of_length_eq_zero (by omega)
    rw [List.append_nil] at related
    rw [List.length_nil, Nat.add_zero] at lengths
    have all : (first.map Tag.plain).filter (!·.isEmpty) = first.map Tag.plain := by
      apply List.filter_eq_self.mpr
      apply List.length_filter_eq_length_iff.mp
      rw [List.length_map]
      exact lengths.symm
    rw [all, List.forall₂_map_right_iff, List.forall₂_same] at related
    exact ⟨rfl, fun tag member => (Tag.restores_iff tag (items tag member)).mp (related tag member)⟩
  · rintro ⟨rfl, restorable⟩
    have each (tag : Text) (member : tag ∈ first) : Tag.Restores tag (Tag.plain tag) :=
      (Tag.restores_iff tag (items tag member)).mpr (restorable tag member)
    have all : (first.map Tag.plain).filter (!·.isEmpty) = first.map Tag.plain := by
      apply List.filter_eq_self.mpr
      rw [List.forall_mem_map]
      intro tag member
      have some_char : Tag.plain tag ≠ [] := by
        rcases each tag member with ⟨item, -⟩ | ⟨same, -⟩
        · exact item.some_char
        · rw [same]
          exact (items tag member).some_char
      simpa using some_char
    rw [List.append_nil, all, List.forall₂_map_right_iff, List.forall₂_same]
    exact each

theorem wrap_compressing (compressed : s.compresses r = true) {α σ κ : Type} [Sink σ] [Deflate.Compressor κ]
    (inner : Handler α) (resources : Resources κ) (a : α) (sink : σ) :
    (s.wrap inner).handle (resources, a) r sink =
      let o := inner.handle a (s.shown r) (s.response sink resources (markedTags r))
      let (q, result) := complete o.sink o.result
      ⟨(resourcesAfter q, o.state), o.request, q.sink, result⟩ := by
  obtain ⟨eligible, uncoded, accepted⟩ := (s.compresses_iff r).mp compressed
  rw [shown, if_pos compressed]
  simp only [wrap, eligible, uncoded, accepted, Bool.not_true, Bool.or_false, Bool.false_eq_true, if_false]

-- The handler sees the tags of the first line without their marks, and no others; if there is no mark
-- in that line it sees all tags as they came. So all tags come out right just if the marks are those
-- of the first line, put in as for a compressed body, and there is no other line.
theorem rewrites_tags (compressed : s.compresses r = true) {α σ κ : Type} [Sink σ] [Deflate.Compressor κ]
    (inner : Handler α) (resources : Resources κ) (a : α) (sink : σ) :
    ((s.wrap inner).handle (resources, a) r sink).state.2 =
      (inner.handle a (s.shown r) (s.response sink resources (markedTags r))).state ∧
    ((s.wrap inner).handle (resources, a) r sink).request =
      (inner.handle a (s.shown r) (s.response sink resources (markedTags r))).request ∧
    (∀ name, name ≠ .ifNoneMatch → (s.shown r).headers.getAll name = r.headers.getAll name) ∧
    match markedTags r with
    | some text =>
      tags (s.shown r) = ((names text).map Tag.plain).filter (!·.isEmpty) ∧
      (List.Forall₂ Tag.Restores (tags r) (tags (s.shown r)) ↔
        laterTags r = [] ∧ ∀ tag ∈ names text, Tag.IsRestorable tag)
    | none =>
      s.shown r = r ∧
      (List.Forall₂ Tag.Restores (tags r) (tags (s.shown r)) ↔
        ∀ tag ∈ tags r, ∀ other, Vary.IsItem other → Tag.gzip other ≠ tag) := by
  have given := s.wrap_compressing r compressed inner resources a sink
  refine ⟨by rw [given], by rw [given], ?_, ?_⟩
  · intro name other
    cases marked : markedTags r with
    | some text =>
        obtain ⟨value, -, given⟩ := s.shown_marked r compressed text marked
        rw [given]
        exact Header.Map.getAll_insert_other r.headers _ name value other
    | none => rw [s.shown_unmarked r compressed marked]
  · cases marked : markedTags r with
    | some text =>
        have seen := s.tags_marked r compressed text marked
        refine ⟨seen, ?_⟩
        rw [seen, tags_first r text marked]
        exact restored_iff _ _ fun tag member => (Vary.names_items text tag member).1
    | none =>
        have kept := s.shown_unmarked r compressed marked
        refine ⟨kept, ?_⟩
        rw [kept, List.forall₂_same]
        refine forall₂_congr fun tag member => ?_
        have stays : ¬ (Vary.IsItem tag ∧ Tag.gzip tag = tag) := fun made =>
          Nat.ne_of_gt (Tag.gzip_longer tag) (congrArg List.length made.2)
        rw [Tag.Restores, or_iff_right stays]
        exact and_iff_right rfl

section Tagged

def tagged (lines : List String) : Request :=
  let named := lines.map fun line => ("if-none-match".toList, line.toList)
  .ofMessage (Fixture.ofHeaders (("accept-encoding".toList, "gzip".toList) :: named)).message

theorem rewrites_tags_listed :
    stage.1.compresses (tagged ["W/\"a--gzip\", \"b\", c--gzip"]) = true ∧
    tags (stage.1.shown (tagged ["W/\"a--gzip\", \"b\", c--gzip"])) = ["W/\"a\"".toList, "\"b\"".toList, ['c']] ∧
    List.Forall₂ Tag.Restores (tags (tagged ["W/\"a--gzip\", \"b\", c--gzip"]))
      (tags (stage.1.shown (tagged ["W/\"a--gzip\", \"b\", c--gzip"]))) := by
  have compressed : stage.1.compresses (tagged ["W/\"a--gzip\", \"b\", c--gzip"]) = true := by decide +kernel
  have marked : markedTags (tagged ["W/\"a--gzip\", \"b\", c--gzip"]) =
      some "W/\"a--gzip\", \"b\", c--gzip".toList := by
    decide +kernel
  obtain ⟨-, -, -, rewritten⟩ :=
    stage.1.rewrites_tags _ compressed (Handler.ofAnswers fun _ => .ok (page [])) stage.2 ()
    (Recorder.new .empty)
  rw [marked] at rewritten
  refine ⟨compressed, rewritten.1.trans (by decide +kernel), rewritten.2.mpr ⟨by decide +kernel, ?_⟩⟩
  have items : names "W/\"a--gzip\", \"b\", c--gzip".toList =
      [Tag.gzip "W/\"a\"".toList, "\"b\"".toList, Tag.gzip ['c']] := by decide +kernel
  rw [items, List.forall_mem_cons, List.forall_mem_cons, List.forall_mem_singleton]
  exact ⟨.inr ⟨_, ⟨by decide, by decide, by decide⟩, by decide, rfl⟩, .inl (by decide),
    .inr ⟨_, ⟨by decide, by decide, by decide⟩, by decide, rfl⟩⟩

theorem tags_lost :
    stage.1.compresses (tagged ["\"a--gzip\"", "\"b\""]) = true ∧
    tags (tagged ["\"a--gzip\"", "\"b\""]) = ["\"a--gzip\"".toList, "\"b\"".toList] ∧
    tags (stage.1.shown (tagged ["\"a--gzip\"", "\"b\""])) = ["\"a\"".toList] ∧
    ¬ List.Forall₂ Tag.Restores (tags (tagged ["\"a--gzip\"", "\"b\""]))
      (tags (stage.1.shown (tagged ["\"a--gzip\"", "\"b\""]))) ∧
    tags (stage.1.shown (tagged ["\"a--gzip-b\""])) = ["\"a-b\"".toList] := by
  have sent : tags (tagged ["\"a--gzip\"", "\"b\""]) = ["\"a--gzip\"".toList, "\"b\"".toList] := by decide +kernel
  have seen : tags (stage.1.shown (tagged ["\"a--gzip\"", "\"b\""])) = ["\"a\"".toList] := by decide +kernel
  refine ⟨by decide +kernel, sent, seen, ?_, by decide +kernel⟩
  rw [sent, seen]
  intro related
  cases related with
  | cons _ rest => cases rest

end Tagged

end Stage

end Gzip

end Gateway
