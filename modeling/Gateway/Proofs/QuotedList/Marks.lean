import Mathlib.Data.List.DropRight
import Gateway.Proofs.QuotedList

set_option autoImplicit false

namespace Gateway.QuotedList

abbrev Mark := Char × Scan

def marks (q : Scan) : Text → List Mark
  | [] => []
  | c :: rest => (c, q) :: marks (q.next c) rest

namespace Mark

def isBlank (m : Mark) : Bool := Text.isBlank m.1

-- A quotation mark, or a backslash that escapes what follows it.
def isSign (m : Mark) : Bool := m.2 ≠ .escaped ∧ (m.1 = '"' ∨ m.1 = '\\' ∧ m.2 = .inside)

def text (ms : List Mark) : Text := ms.map (·.1)

def unquoted (ms : List Mark) : Text := text (ms.filter (!·.isSign))

def trim (ms : List Mark) : List Mark := (ms.dropWhile isBlank).rdropWhile isBlank

def assigns : Mark := ('=', .outside)

def assignment? (ms : List Mark) : Option (Text × Text) :=
  if assigns ∈ ms then
    some (Text.lower (text (trim (ms.takeWhile (· ≠ assigns)))), unquoted (trim (ms.dropWhile (· ≠ assigns)).tail))
  else none

def bare? (ms : List Mark) : Option Text := if assigns ∈ ms ∨ ms = [] then none else some (unquoted ms)

def flag? (ms : List Mark) : Option (Text × Text) :=
  if assigns ∈ ms ∨ ms = [] then none else some (Text.lower (text ms), [])

def Nameless (ms : List Mark) : Prop := (text ms).head? = some '='

instance (ms : List Mark) : Decidable (Nameless ms) := inferInstanceAs (Decidable (_ = _))

end Mark

open Mark

def Element.IsGiven (e : Element) : Prop := e.value.isSome ∨ e.params ≠ []

instance (e : Element) : Decidable e.IsGiven := inferInstanceAs (Decidable (_ ∨ _))

def Element.ofSegments : List (List Mark) → Element
  | [] => .empty
  | first :: rest =>
    ⟨bare? first, (assignment? first).toList ++ rest.filterMap fun ms => (assignment? ms).or (flag? ms)⟩

def pieces (s : Text) : List (List (List Mark)) :=
  ((marks .outside s).splitOn (',', .outside)).map fun piece => (piece.splitOn (';', .outside)).map Mark.trim

def elements (s : Text) : List Element := ((pieces s).map Element.ofSegments).filter (·.IsGiven)

def IsMalformed (s : Text) : Prop :=
  scan .outside s ≠ .outside ∨ ∃ piece ∈ pieces s, ∃ segment ∈ piece, Nameless segment

instance (s : Text) : Decidable (IsMalformed s) := inferInstanceAs (Decidable (_ ∨ _))

section Scanning

variable (separator : Char) (q : Scan)

theorem text_marks (s : Text) : text (marks q s) = s := by
  induction s generalizing q with
  | nil => rfl
  | cons c rest ih => exact congrArg (c :: ·) (ih (q.next c))

theorem marks_append (before after : Text) :
    marks q (before ++ after) = marks q before ++ marks (scan q before) after := by
  induction before generalizing q with
  | nil => rfl
  | cons c rest ih => exact congrArg ((c, q) :: ·) (ih (q.next c))

theorem split_marks (plain : separator ≠ '"') (s part : Text) (more : List Text)
    (found : parts separator q s = part :: more) :
    (marks q s).splitOn (separator, .outside) = marks q part :: more.map (marks .outside) := by
  induction s generalizing q part more with
  | nil =>
      obtain ⟨rfl, rfl⟩ : [] = part ∧ [] = more := by simpa [parts] using found
      rfl
  | cons c rest ih =>
      obtain ⟨next, others, rest_found⟩ := parts_some separator (q.next c) rest
      have later := ih (q.next c) next others rest_found
      rw [List.splitOn_eq_splitOnP] at later ⊢
      rw [marks, List.splitOnP_cons_eq_if_modifyHead, later]
      by_cases cuts : c = separator ∧ q = .outside
      · obtain ⟨rfl, rfl⟩ := cuts
        rw [next_outside c plain] at rest_found
        rw [parts_separator, rest_found] at found
        obtain ⟨rfl, rfl⟩ := List.cons.inj found
        rw [if_pos (beq_self_eq_true _), next_outside c plain]
        rfl
      · rw [parts_cons separator q c rest next others cuts rest_found] at found
        obtain ⟨rfl, rfl⟩ := List.cons.inj found
        rw [if_neg (by simpa using cuts)]
        rfl

theorem split_outside (plain : separator ≠ '"') (s : Text) :
    (marks .outside s).splitOn (separator, .outside) = (parts separator .outside s).map (marks .outside) := by
  obtain ⟨part, more, found⟩ := parts_some separator .outside s
  rw [split_marks separator .outside plain s part more found, found]
  rfl

theorem parts_closed (plain : separator ≠ '"') (s part : Text) (more : List Text)
    (found : parts separator q s = part :: more)
    (closed : scan q s = .outside) : scan q part = .outside ∧ ∀ raw ∈ more, scan .outside raw = .outside := by
  induction s generalizing q part more with
  | nil =>
      obtain ⟨rfl, rfl⟩ : [] = part ∧ [] = more := by simpa [parts] using found
      exact ⟨closed, List.forall_mem_nil _⟩
  | cons c rest ih =>
      obtain ⟨next, others, rest_found⟩ := parts_some separator (q.next c) rest
      have later := ih (q.next c) next others rest_found closed
      by_cases cuts : c = separator ∧ q = .outside
      · obtain ⟨rfl, rfl⟩ := cuts
        rw [next_outside c plain] at rest_found later
        rw [parts_separator, rest_found] at found
        obtain ⟨rfl, rfl⟩ := List.cons.inj found
        exact ⟨rfl, List.forall_mem_cons.mpr later⟩
      · rw [parts_cons separator q c rest next others cuts rest_found] at found
        obtain ⟨rfl, rfl⟩ := List.cons.inj found
        exact later

theorem part_closed (plain : separator ≠ '"') (s : Text) (closed : scan .outside s = .outside) :
    ∀ raw ∈ parts separator .outside s, scan .outside raw = .outside := by
  obtain ⟨part, more, found⟩ := parts_some separator .outside s
  rw [found, List.forall_mem_cons]
  exact parts_closed separator .outside plain s part more found closed

theorem trim_end_marks (s : Text) : (marks q s).rdropWhile Mark.isBlank = marks q (Text.trimEnd s) := by
  induction s using List.reverseRecOn with
  | nil => rfl
  | append_singleton front c ih =>
      have same : Mark.isBlank (c, scan q front) = Text.isBlank c := rfl
      rw [marks_append]
      change List.rdropWhile Mark.isBlank (marks q front ++ [(c, scan q front)]) =
        marks q (List.rdropWhile Text.isBlank (front ++ [c]))
      rw [List.rdropWhile_concat, List.rdropWhile_concat, same]
      split
      · exact ih
      · exact (marks_append q front [c]).symm

theorem trim_start_marks (s : Text) :
    (marks .outside s).dropWhile Mark.isBlank = marks .outside (Text.trimStart s) := by
  induction s with
  | nil => rfl
  | cons c rest ih =>
      rw [marks, List.dropWhile_cons, Text.trimStart, List.dropWhile_cons]
      change (if Text.isBlank c = true then _ else _) = _
      split
      · rename_i blank
        rw [next_outside c (by rintro rfl; cases blank)]
        exact ih
      · rfl

theorem trim_marks (s : Text) : Mark.trim (marks .outside s) = marks .outside (Text.trim s) := by
  rw [Mark.trim, trim_start_marks, trim_end_marks]
  rfl

theorem unquoted_marks (s : Text) : unquoted (marks q s) = unquote q s := by
  induction s generalizing q with
  | nil => rfl
  | cons c rest ih =>
      rw [unquote, ← ih (q.next c), marks, unquoted, List.filter_cons, unquoted]
      by_cases sign : q ≠ .escaped ∧ (c = '"' ∨ c = '\\' ∧ q = .inside)
      · have signs : Mark.isSign (c, q) = true := decide_eq_true sign
        rw [if_pos sign, signs]
        rfl
      · have plain : Mark.isSign (c, q) = false := decide_eq_false sign
        rw [if_neg sign, plain]
        rfl

theorem hidden_cons (mark c : Char) (rest : Text) : (mark, Scan.outside) ∉ marks q (c :: rest) ↔
    ¬ (c = mark ∧ q = .outside) ∧ (mark, Scan.outside) ∉ marks (q.next c) rest := by
  rw [marks, List.mem_cons, not_or, Prod.mk.injEq, eq_comm, @eq_comm _ Scan.outside]

theorem cut_marks (mark : Char) (plain : mark ≠ '"') (s before after : Text)
    (found : cut mark q s = some (before, after)) :
    marks q s = marks q before ++ (mark, .outside) :: marks .outside after ∧ (mark, Scan.outside) ∉ marks q before := by
  induction s generalizing q before with
  | nil => cases found
  | cons c rest ih =>
      rw [cut] at found
      by_cases here : c = mark ∧ q = .outside
      · obtain ⟨rfl, rfl⟩ := here
        rw [if_pos ⟨rfl, rfl⟩] at found
        cases found
        refine ⟨?_, List.not_mem_nil⟩
        change (c, Scan.outside) :: marks (Scan.outside.next c) after = _
        rw [next_outside c plain]
        rfl
      · rw [if_neg here] at found
        obtain ⟨⟨front, back⟩, later, same⟩ := Option.map_eq_some_iff.mp found
        cases same
        obtain ⟨whole, clean⟩ := ih (q.next c) front later
        exact ⟨congrArg ((c, q) :: ·) whole, (hidden_cons q mark c front).mpr ⟨here, clean⟩⟩

theorem uncut_marks (mark : Char) (s : Text) (uncut : cut mark q s = none) : (mark, Scan.outside) ∉ marks q s := by
  induction s generalizing q with
  | nil => exact List.not_mem_nil
  | cons c rest ih =>
      rw [cut] at uncut
      by_cases here : c = mark ∧ q = .outside
      · rw [if_pos here] at uncut
        cases uncut
      · rw [if_neg here] at uncut
        exact (hidden_cons q mark c rest).mpr ⟨here, ih (q.next c) (Option.map_eq_none_iff.mp uncut)⟩

end Scanning

def segmentOf (raw : Text) : List Mark := Mark.trim (marks .outside raw)

inductive Reads (ms : List Mark) : Segment → Prop where
  | blank (empty : ms = []) : Reads ms .blank
  | word (some_text : ms ≠ []) (unsigned : assigns ∉ ms) (text : Text) (same : Mark.text ms = text)
      (value : unquoted ms = unquote .outside text) : Reads ms (.word text)
  | param (name value : Text) (assigned : assignment? ms = some (name, value)) : Reads ms (.param name value)

section Segments

variable (whole raw : Text)

theorem text_trim (before : Text) : text (Mark.trim (marks .outside before)) = Text.trim before := by
  rw [trim_marks, text_marks]

theorem assignment_marks (s name value : Text) (found : cut '=' .outside s = some (name, value)) :
    assignment? (marks .outside s) = some (Text.lower (Text.trim name), unquote .outside (Text.trim value)) := by
  obtain ⟨marked, clean⟩ := cut_marks .outside '=' (by decide) s name value found
  have other (m : Mark) (member : m ∈ marks .outside name) : decide (m ≠ assigns) = true := by
    refine decide_eq_true ?_
    rintro rfl
    exact clean member
  have front : (marks .outside s).takeWhile (· ≠ assigns) = marks .outside name := by
    rw [marked, List.takeWhile_append_of_pos other]
    simp [assigns]
  have back : ((marks .outside s).dropWhile (· ≠ assigns)).tail = marks .outside value := by
    rw [marked, List.dropWhile_append_of_pos other]
    simp [assigns]
  have signed : assigns ∈ marks .outside s := by
    rw [marked]
    simp [assigns]
  rw [assignment?, if_pos signed, front, back, text_trim, trim_marks, unquoted_marks]

theorem cut_ahead (c : Char) (rest name value : Text) (unsigned : c ≠ '=')
    (found : cut '=' .outside (c :: rest) = some (name, value)) : c ∈ name := by
  rw [cut, if_neg (by simp [unsigned])] at found
  obtain ⟨⟨front, back⟩, -, same⟩ := Option.map_eq_some_iff.mp found
  cases same
  exact List.mem_cons_self

theorem read_segment_cases :
    (Nameless (segmentOf raw) ∧ readSegment raw = none) ∨
    ¬ Nameless (segmentOf raw) ∧ ∃ segment, readSegment raw = some segment ∧ Reads (segmentOf raw) segment := by
  have marked : segmentOf raw = marks .outside (Text.trim raw) := trim_marks raw
  rw [marked, Nameless, text_marks, readSegment]
  have trimmed := Text.trim_trim raw
  generalize Text.trim raw = s at trimmed
  cases s with
  | nil => exact .inr ⟨nofun, .blank, rfl, .blank rfl⟩
  | cons c rest =>
      have present : Text.isBlank c = false := Text.trim_head (c :: rest) rest c trimmed
      rw [if_neg (by simp)]
      by_cases sign : c = '='
      · subst sign
        exact .inl ⟨rfl, rfl⟩
      · refine .inr ⟨by simpa using sign, ?_⟩
        cases found : cut '=' .outside (c :: rest) with
        | none =>
            have unsigned := uncut_marks .outside '=' (c :: rest) found
            exact ⟨_, rfl, .word (by simp [marks]) unsigned _ (text_marks _ _) (unquoted_marks _ _)⟩
        | some both =>
            obtain ⟨name, value⟩ := both
            have named : (Text.trim name).isEmpty = false :=
              Text.trim_present name c (cut_ahead c rest name value sign found) present
            refine ⟨.param (Text.lower (Text.trim name)) (unquote .outside (Text.trim value)), ?_, ?_⟩
            · simp [named]
            · exact .param _ _ (assignment_marks (c :: rest) name value found)

theorem assigned_signed (ms : List Mark) (given : Text × Text)
    (assigned : assignment? ms = some given) : assigns ∈ ms := by
  by_contra unsigned
  rw [assignment?, if_neg unsigned] at assigned
  cases assigned

theorem add_first (ms : List Mark) (segment : Segment) (reads : Reads ms segment) :
    addSegment true .empty segment = ⟨bare? ms, (assignment? ms).toList⟩ := by
  cases reads with
  | blank empty =>
      subst empty
      rfl
  | word some_text unsigned text same value =>
      rw [bare?, if_neg (not_or.mpr ⟨unsigned, some_text⟩), assignment?, if_neg unsigned, value]
      rfl
  | param name value assigned =>
      rw [bare?, if_pos (.inl (assigned_signed ms _ assigned)), assigned]
      rfl

theorem add_later (e : Element) (ms : List Mark) (segment : Segment) (reads : Reads ms segment) :
    addSegment false e segment = { e with params := e.params ++ ((assignment? ms).or (flag? ms)).toList } := by
  cases reads with
  | blank empty =>
      subst empty
      exact congrArg (Element.mk e.value) (List.append_nil _).symm
  | word some_text unsigned text same value =>
      rw [assignment?, if_neg unsigned, flag?, if_neg (not_or.mpr ⟨unsigned, some_text⟩), same]
      rfl
  | param name value assigned =>
      rw [assigned]
      rfl

def IsNamed (raws : List Text) : Prop := ∀ raw ∈ raws, ¬ Nameless (segmentOf raw)

theorem read_later (e : Element) (raws : List Text) (named : IsNamed raws) :
    readSegments whole false e raws =
      .ok { e with params := e.params ++ (raws.map segmentOf).filterMap fun ms => (assignment? ms).or (flag? ms) } := by
  induction raws generalizing e with
  | nil => exact congrArg (fun params => Except.ok (Element.mk e.value params)) (List.append_nil _).symm
  | cons raw rest ih =>
      rw [IsNamed, List.forall_mem_cons] at named
      obtain ⟨-, segment, read, reads⟩ := (read_segment_cases raw).resolve_left fun nameless => named.1 nameless.1
      rw [readSegments, read]
      dsimp only
      rw [add_later e _ segment reads, ih _ named.2, List.map_cons, List.filterMap_cons, List.append_assoc]
      cases (assignment? (segmentOf raw)).or (flag? (segmentOf raw)) <;> rfl

theorem read_all_segments (raws : List Text) (named : IsNamed raws) :
    readSegments whole true .empty raws = .ok (.ofSegments (raws.map segmentOf)) := by
  cases raws with
  | nil => rfl
  | cons raw rest =>
      rw [IsNamed, List.forall_mem_cons] at named
      obtain ⟨-, segment, read, reads⟩ := (read_segment_cases raw).resolve_left fun nameless => named.1 nameless.1
      rw [readSegments, read]
      dsimp only
      rw [add_first _ segment reads, read_later whole _ rest named.2]
      rfl

def nameless (whole : Text) : ParseError :=
  .invalidQuotedList ("empty parameter name in `".toList ++ whole ++ "`".toList)

theorem read_nameless (first : Bool) (e : Element) (raws : List Text) (unnamed : ¬ IsNamed raws) :
    readSegments whole first e raws = .error (nameless whole) := by
  induction raws generalizing first e with
  | nil => exact (unnamed nofun).elim
  | cons raw rest ih =>
      rw [readSegments]
      rcases read_segment_cases raw with ⟨-, read⟩ | ⟨named, segment, read, -⟩
      · rw [read]
        rfl
      · rw [read]
        exact ih false _ fun later => unnamed (List.forall_mem_cons.mpr ⟨named, later⟩)

end Segments

def segmentsOf (raw : Text) : List (List Mark) := (parts ';' .outside raw).map segmentOf

section Elements

variable (whole : Text)

theorem blank_parts (s : Text) (blank : ∀ c ∈ s, Text.isBlank c = true) : parts ';' .outside s = [s] := by
  induction s with
  | nil => rfl
  | cons c rest ih =>
      rw [List.forall_mem_cons] at blank
      exact parts_blank ';' c blank.1 (by decide) rest rest [] (ih blank.2)

theorem blank_segments (raw : Text) (blank : (Text.trim raw).isEmpty = true) : segmentsOf raw = [[]] := by
  rw [List.isEmpty_iff] at blank
  rw [segmentsOf, blank_parts raw (Text.trim_nil raw blank), List.map_singleton, segmentOf, trim_marks, blank]
  rfl

theorem named_segments (raw : Text) :
    IsNamed (parts ';' .outside raw) ↔ ∀ segment ∈ segmentsOf raw, ¬ Nameless segment := by
  rw [segmentsOf, List.forall_mem_map]
  rfl

theorem read_element_named (raw : Text) (closed : scan .outside raw = .outside)
    (named : ∀ segment ∈ segmentsOf raw, ¬ Nameless segment) :
    readElement whole raw = .ok ([Element.ofSegments (segmentsOf raw)].filter (·.IsGiven)) := by
  unfold readElement
  by_cases blank : (Text.trim raw).isEmpty = true
  · rw [if_pos blank, blank_segments raw blank]
    rfl
  · rw [if_neg blank, (split_ok ';' raw _).mpr ⟨closed, rfl⟩]
    change (readSegments whole true .empty (parts ';' .outside raw) >>= _) = _
    rw [read_all_segments whole _ ((named_segments raw).mpr named)]
    change (if (Element.ofSegments (segmentsOf raw)).IsGiven then _ else _) = _
    by_cases given : (Element.ofSegments (segmentsOf raw)).IsGiven
    · rw [if_pos given, List.filter_cons_of_pos (by simpa using given)]
      rfl
    · rw [if_neg given, List.filter_cons_of_neg (by simpa using given)]
      rfl

theorem read_element_nameless (raw : Text) (closed : scan .outside raw = .outside)
    (unnamed : ¬ ∀ segment ∈ segmentsOf raw, ¬ Nameless segment) : readElement whole raw = .error (nameless whole) := by
  unfold readElement
  by_cases blank : (Text.trim raw).isEmpty = true
  · rw [blank_segments raw blank] at unnamed
    exact (unnamed (List.forall_mem_singleton.mpr nofun)).elim
  · rw [if_neg blank, (split_ok ';' raw _).mpr ⟨closed, rfl⟩]
    change (readSegments whole true .empty (parts ';' .outside raw) >>= _) = _
    rw [read_nameless whole _ _ _ (mt (named_segments raw).mp unnamed)]
    rfl

theorem read_elements_named (raws : List Text) (closed : ∀ raw ∈ raws, scan .outside raw = .outside)
    (named : ∀ raw ∈ raws, ∀ segment ∈ segmentsOf raw, ¬ Nameless segment) :
    readElements whole raws = .ok (((raws.map segmentsOf).map Element.ofSegments).filter (·.IsGiven)) := by
  induction raws with
  | nil => rfl
  | cons raw rest ih =>
      rw [List.forall_mem_cons] at closed named
      rw [readElements, read_element_named whole raw closed.1 named.1, ih closed.2 named.2]
      exact congrArg Except.ok (List.filter_append _ _).symm

theorem read_elements_nameless (raws : List Text) (closed : ∀ raw ∈ raws, scan .outside raw = .outside)
    (unnamed : ¬ ∀ raw ∈ raws, ∀ segment ∈ segmentsOf raw, ¬ Nameless segment) :
    readElements whole raws = .error (nameless whole) := by
  induction raws with
  | nil => exact (unnamed nofun).elim
  | cons raw rest ih =>
      rw [List.forall_mem_cons] at closed unnamed
      rw [readElements]
      by_cases named : ∀ segment ∈ segmentsOf raw, ¬ Nameless segment
      · rw [read_element_named whole raw closed.1 named, ih closed.2 fun later => unnamed ⟨named, later⟩]
        rfl
      · rw [read_element_nameless whole raw closed.1 named]
        rfl

theorem pieces_parts (s : Text) : pieces s = (parts ',' .outside s).map segmentsOf := by
  rw [pieces, split_outside ',' (by decide), List.map_map]
  refine List.map_congr_left fun raw _ => ?_
  change ((marks .outside raw).splitOn (';', .outside)).map Mark.trim = _
  rw [split_outside ';' (by decide), List.map_map]
  rfl

end Elements

def unterminated (s : Text) : ParseError :=
  .invalidQuotedList ("unterminated quoted string in `".toList ++ s ++ "`".toList)

theorem split_open (separator : Char) (s : Text) (unclosed : scan .outside s ≠ .outside) :
    split separator s = .error (unterminated s) := by
  rw [split, Scan.closed, if_neg (by simpa using unclosed)]
  rfl

theorem read_open (s : Text) (unclosed : scan .outside s ≠ .outside) : read s = .error (unterminated s) := by
  rw [read, split_open ',' s unclosed]
  rfl

theorem read_parts (s : Text) (closed : scan .outside s = .outside) :
    read s = readElements s (parts ',' .outside s) := by
  rw [read, (split_ok ',' s _).mpr ⟨closed, rfl⟩]
  rfl

theorem named_pieces (s : Text) : (∀ raw ∈ parts ',' .outside s, ∀ segment ∈ segmentsOf raw, ¬ Nameless segment) ↔
    ¬ ∃ piece ∈ pieces s, ∃ segment ∈ piece, Nameless segment := by
  simp only [not_exists, not_and]
  rw [pieces_parts, List.forall_mem_map]

theorem read_sound (s : Text) (sound : ¬ IsMalformed s) : read s = .ok (elements s) := by
  rw [IsMalformed, not_or, Classical.not_not] at sound
  have closed := part_closed ',' (by decide) s sound.1
  rw [read_parts s sound.1, read_elements_named s _ closed ((named_pieces s).mpr sound.2), elements, pieces_parts]

theorem read_malformed (s : Text) (malformed : IsMalformed s) :
    read s = .error (if scan .outside s = .outside then nameless s else unterminated s) := by
  by_cases whole : scan .outside s = .outside
  · have unnamed := malformed.resolve_left fun unclosed => unclosed whole
    have closed := part_closed ',' (by decide) s whole
    rw [if_pos whole, read_parts s whole,
      read_elements_nameless s _ closed fun named => (named_pieces s).mp named unnamed]
  · rw [if_neg whole, read_open s whole]

-- Reading in three passes, each of which scans anew, is reading with one scan: it fails where this scan ends
-- in a quoted string or a segment has a sign and no name, and gives what the scan has cut otherwise. The
-- parts between commas can always be split again.
theorem scans_once (s : Text) :
    ((∃ e, read s = .error e) ↔ IsMalformed s) ∧
    (IsMalformed s → read s = .error (if scan .outside s = .outside then nameless s else unterminated s)) ∧
    (¬ IsMalformed s → read s = .ok (elements s)) ∧
    ∀ raws, split ',' s = .ok raws → ∀ raw ∈ raws, ∃ segments, split ';' raw = .ok segments := by
  refine ⟨⟨?_, fun malformed => ⟨_, read_malformed s malformed⟩⟩, read_malformed s, read_sound s, ?_⟩
  · rintro ⟨e, failed⟩
    by_contra sound
    cases (read_sound s sound).symm.trans failed
  · intro raws cut raw member
    obtain ⟨closed, rfl⟩ := (split_ok ',' s raws).mp cut
    exact ⟨_, (split_ok ';' raw _).mpr ⟨part_closed ',' (by decide) s closed raw member, rfl⟩⟩

theorem scans_once_quoted :
    read "a=\"x,;=\\\"\";B , c".toList =
      .ok [⟨none, [("a".toList, "x,;=\"".toList), ("b".toList, [])]⟩, ⟨some "c".toList, []⟩] := by
  obtain ⟨-, -, reads, -⟩ := scans_once "a=\"x,;=\\\"\";B , c".toList
  exact reads (by decide)

end Gateway.QuotedList
