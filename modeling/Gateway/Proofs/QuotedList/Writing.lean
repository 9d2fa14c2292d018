import Gateway.Proofs.QuotedList.Marks
import Mathlib.Data.List.Forall2

set_option autoImplicit false

namespace Gateway

namespace Token

theorem char_visible (c : Char) (char : isChar c = true) : 32 < c.toNat ∧ c.toNat < 127 := by
  have special : ("!#$%&'*+-.^_|~".toList.all fun d => 32 < d.toNat ∧ d.toNat < 127) = true := by decide
  unfold isChar at char
  rw [Bool.or_eq_true, Bool.or_eq_true, List.contains_iff_mem, beq_iff_eq] at char
  rcases char with (word | listed) | grave
  · change (c.isUpper || c.isLower || c.isDigit) = true at word
    rw [Bool.or_eq_true, Bool.or_eq_true, Char.isDigit_iff_toNat] at word
    rcases word with (upper | lower) | digit
    · have range : 65 ≤ c.toNat ∧ c.toNat ≤ 90 := of_decide_eq_true upper
      omega
    · have range : 97 ≤ c.toNat ∧ c.toNat ≤ 122 :=
        ((Bool.and_eq_true_iff).mp lower).imp of_decide_eq_true of_decide_eq_true
      omega
    · have range : 48 ≤ c.toNat ∧ c.toNat ≤ 57 := digit
      omega
  · exact of_decide_eq_true (List.all_eq_true.mp special c listed)
  · omega

theorem char_present (c : Char) (char : isChar c = true) : Text.isBlank c = false := by
  obtain ⟨low, high⟩ := char_visible c char
  unfold Text.isBlank
  simp only [Bool.or_eq_false_iff, Bool.and_eq_false_iff, beq_eq_false_iff_ne, decide_eq_false_iff_not]
  omega

end Token

namespace QuotedList

open Mark

def escape (c : Char) : Text := if c = '"' ∨ c = '\\' then ['\\', c] else [c]

def quote (value : Text) : Text := '"' :: (value.flatMap escape ++ ['"'])

def IsPadded (s t : Text) : Prop :=
  ∃ before after, t = before ++ s ++ after ∧ (∀ c ∈ before, Text.isBlank c = true) ∧
    ∀ c ∈ after, Text.isBlank c = true

structure IsName (name : Text) : Prop where
  token : Token.isToken name = true
  small : Text.lower name = name

structure Element.IsProper (e : Element) : Prop where
  given : e.IsGiven
  named : ∀ param ∈ e.params, IsName param.1

def ParamWritten (param : Text × Text) (t : Text) : Prop :=
  ∃ name value, IsPadded param.1 name ∧ IsPadded (quote param.2) value ∧ t = name ++ '=' :: value

def ElementWritten (e : Element) (t : Text) : Prop :=
  ∃ bare params, List.Forall₂ (fun value text => IsPadded (quote value) text) e.value.toList bare ∧
    List.Forall₂ ParamWritten e.params params ∧ t = Text.join [';'] (bare ++ params)

def Written (es : List Element) (t : Text) : Prop :=
  ∃ texts, List.Forall₂ ElementWritten es texts ∧ t = Text.join [','] texts

def Element.write (e : Element) : Text :=
  Text.join [';'] (e.value.toList.map quote ++ e.params.map fun param => param.1 ++ '=' :: quote param.2)

def write (es : List Element) : Text := Text.join [','] (es.map Element.write)

theorem padded_refl (s : Text) : IsPadded s s := ⟨[], [], by simp, nofun, nofun⟩

theorem written_write (es : List Element) : Written es (write es) := by
  refine ⟨es.map Element.write, ?_, rfl⟩
  rw [List.forall₂_map_right_iff, List.forall₂_same]
  intro e _
  refine ⟨e.value.toList.map quote, e.params.map fun param => param.1 ++ '=' :: quote param.2, ?_, ?_, rfl⟩
  · rw [List.forall₂_map_right_iff, List.forall₂_same]
    exact fun value _ => padded_refl (quote value)
  · rw [List.forall₂_map_right_iff, List.forall₂_same]
    exact fun param _ => ⟨param.1, quote param.2, padded_refl _, padded_refl _, rfl⟩

section Quoting

theorem scan_escape (c : Char) : scan .inside (escape c) = .inside := by
  unfold escape
  split
  · rfl
  · rename_i plain
    rw [not_or] at plain
    simp [scan, Scan.next, plain.1, plain.2]

theorem marks_escape (c : Char) : ∀ m ∈ marks .inside (escape c), m.2 ≠ .outside := by
  unfold escape
  split
  · simp [marks, Scan.next]
  · simp [marks]

theorem unquote_escape (c : Char) (rest : Text) : unquote .inside (escape c ++ rest) = c :: unquote .inside rest := by
  unfold escape
  split
  · simp [unquote, Scan.next]
  · rename_i plain
    rw [not_or] at plain
    simp [unquote, Scan.next, plain.1, plain.2]

theorem scan_escaped (value : Text) : scan .inside (value.flatMap escape) = .inside := by
  induction value with
  | nil => rfl
  | cons c rest ih => rw [List.flatMap_cons, scan_append, scan_escape, ih]

theorem marks_escaped (value : Text) : ∀ m ∈ marks .inside (value.flatMap escape), m.2 ≠ .outside := by
  induction value with
  | nil => exact nofun
  | cons c rest ih =>
      rw [List.flatMap_cons, marks_append, scan_escape, List.forall_mem_append]
      exact ⟨marks_escape c, ih⟩

theorem scan_quote (value : Text) : scan .outside (quote value) = .outside := by
  change scan .inside (value.flatMap escape ++ ['"']) = .outside
  rw [scan_append, scan_escaped]
  rfl

theorem marks_quote (value : Text) (c : Char) (met : (c, Scan.outside) ∈ marks .outside (quote value)) : c = '"' := by
  change (c, Scan.outside) ∈ ('"', Scan.outside) :: marks .inside (value.flatMap escape ++ ['"']) at met
  rw [marks_append, scan_escaped, List.mem_cons, List.mem_append] at met
  rcases met with opening | within | closing
  · exact (Prod.mk.inj opening).1
  · exact (marks_escaped value _ within rfl).elim
  · simp [marks] at closing

theorem unquote_quote (value : Text) : unquote .outside (quote value) = value := by
  have inner : unquote .inside (value.flatMap escape ++ ['"']) = value := by
    induction value with
    | nil => rfl
    | cons c rest ih => rw [List.flatMap_cons, List.append_assoc, unquote_escape, ih]
  exact inner

end Quoting

-- A text in which a reader from outside meets no separator outside, and that leaves it there.
structure IsSealed (separator : Char) (s : Text) : Prop where
  closed : scan .outside s = .outside
  hidden : (separator, Scan.outside) ∉ marks .outside s

section Sealing

variable (separator : Char)

theorem sealed_append (a b : Text) (front : IsSealed separator a) (back : IsSealed separator b) :
    IsSealed separator (a ++ b) where
  closed := by rw [scan_append, front.closed, back.closed]
  hidden := by
    rw [marks_append, front.closed, List.mem_append, not_or]
    exact ⟨front.hidden, back.hidden⟩

theorem sealed_plain (s : Text) (plain : ∀ c ∈ s, c ≠ '"' ∧ c ≠ separator) : IsSealed separator s := by
  induction s with
  | nil => exact ⟨rfl, List.not_mem_nil⟩
  | cons c rest ih =>
      rw [List.forall_mem_cons] at plain
      have alone : IsSealed separator [c] :=
        ⟨next_outside c plain.1.1, by simpa [marks] using Ne.symm plain.1.2⟩
      exact sealed_append separator [c] rest alone (ih plain.2)

theorem sealed_quote (value : Text) (plain : separator ≠ '"') : IsSealed separator (quote value) :=
  ⟨scan_quote value, fun met => plain (marks_quote value separator met)⟩

theorem sealed_blank (s : Text) (present : Text.isBlank separator = false) (blank : ∀ c ∈ s, Text.isBlank c = true) :
    IsSealed separator s := by
  apply sealed_plain separator s
  intro c member
  have here := blank c member
  refine ⟨?_, ?_⟩
  · rintro rfl
    cases here
  · rintro rfl
    cases present.symm.trans here

theorem sealed_padded (s t : Text) (present : Text.isBlank separator = false) (inner : IsSealed separator s)
    (padded : IsPadded s t) : IsSealed separator t := by
  obtain ⟨before, after, rfl, blank, blank'⟩ := padded
  apply sealed_append separator
  · exact sealed_append separator before s (sealed_blank separator before present blank) inner
  · exact sealed_blank separator after present blank'

theorem sealed_join (between : Char) (texts : List Text) (plain : between ≠ '"' ∧ between ≠ separator)
    (inner : ∀ t ∈ texts, IsSealed separator t) : IsSealed separator (Text.join [between] texts) := by
  have middle : IsSealed separator [between] := sealed_plain separator [between] (List.forall_mem_singleton.mpr plain)
  exact Text.join_keeps (IsSealed separator) _ ⟨rfl, List.not_mem_nil⟩ middle (sealed_append separator) texts inner

theorem parts_hidden (q : Scan) (s : Text) (hidden : (separator, Scan.outside) ∉ marks q s) :
    parts separator q s = [s] := by
  induction s generalizing q with
  | nil => rfl
  | cons c rest ih =>
      obtain ⟨here, later⟩ := (hidden_cons q separator c rest).mp hidden
      exact parts_cons separator q c rest rest [] here (ih (q.next c) later)

theorem scan_join (plain : separator ≠ '"') (texts : List Text) (closed : ∀ t ∈ texts, scan .outside t = .outside) :
    scan .outside (Text.join [separator] texts) = .outside := by
  have behind (a b : Text) (front : scan .outside a = .outside) (back : scan .outside b = .outside) :
      scan .outside (a ++ b) = .outside := by rw [scan_append, front, back]
  exact Text.join_keeps (fun s => scan .outside s = .outside) [separator] rfl
    (next_outside separator plain) behind texts closed

theorem parts_join (plain : separator ≠ '"') (texts : List Text) (some_text : texts ≠ [])
    (inner : ∀ t ∈ texts, IsSealed separator t) : parts separator .outside (Text.join [separator] texts) = texts := by
  induction texts with
  | nil => exact (some_text rfl).elim
  | cons t rest ih =>
      rw [List.forall_mem_cons] at inner
      have alone := parts_hidden separator .outside t inner.1.hidden
      by_cases last : rest = []
      · subst last
        exact alone
      · rw [Text.join_cons _ _ _ last, List.append_assoc, List.singleton_append,
          parts_append separator .outside plain t _ inner.1.closed, alone, ih last inner.2]
        rfl

theorem cut_hidden (q : Scan) (before after : Text) (closed : scan q before = .outside)
    (hidden : (separator, Scan.outside) ∉ marks q before) :
    cut separator q (before ++ separator :: after) = some (before, after) := by
  induction before generalizing q with
  | nil =>
      change q = .outside at closed
      rw [closed, List.nil_append, cut, if_pos ⟨rfl, rfl⟩]
  | cons c rest ih =>
      obtain ⟨here, later⟩ := (hidden_cons q separator c rest).mp hidden
      rw [List.cons_append, cut, if_neg here, ih (q.next c) closed later]
      rfl

end Sealing

section Segments

theorem padded_trim (s t : Text) (padded : IsPadded s t) : Text.trim t = Text.trim s := by
  obtain ⟨before, after, rfl, blank, blank'⟩ := padded
  exact Text.trim_framed before s after blank blank'

theorem segment_trim (t : Text) : segmentOf t = marks .outside (Text.trim t) := trim_marks t

theorem trim_quote (value : Text) : Text.trim (quote value) = quote value :=
  Text.trim_firm (quote value) _ ('"' :: value.flatMap escape) '"' '"' rfl rfl rfl rfl

theorem segment_bare (value t : Text) (padded : IsPadded (quote value) t) :
    bare? (segmentOf t) = some value ∧ assignment? (segmentOf t) = none ∧ ¬ Nameless (segmentOf t) := by
  have segment : segmentOf t = marks .outside (quote value) := by rw [segment_trim, padded_trim _ t padded, trim_quote]
  have unsigned : assigns ∉ marks .outside (quote value) := fun met => by cases marks_quote value '=' met
  rw [segment, Nameless, text_marks, bare?, assignment?, if_neg unsigned, unquoted_marks, unquote_quote]
  refine ⟨if_neg (not_or.mpr ⟨unsigned, List.cons_ne_nil _ _⟩), rfl, ?_⟩
  rintro ⟨⟩

theorem name_plain (name : Text) (legal : IsName name) (c : Char) (member : c ∈ name) : Token.isChar c = true := by
  have token := legal.token
  rw [Token.isToken, Bool.and_eq_true, List.all_eq_true] at token
  exact token.2 c member

theorem name_sealed (separator : Char) (name : Text) (legal : IsName name) (foreign : Token.isChar separator = false) :
    IsSealed separator name := by
  apply sealed_plain separator name
  intro c member
  have char := name_plain name legal c member
  refine ⟨?_, ?_⟩
  · rintro rfl
    cases char
  · rintro rfl
    cases foreign.symm.trans char

theorem trim_name (name : Text) (legal : IsName name) : Text.trim name = name :=
  Text.trim_clean name fun c member => Token.char_present c (name_plain name legal c member)

theorem segment_param (param : Text × Text) (t : Text) (legal : IsName param.1) (written : ParamWritten param t) :
    assignment? (segmentOf t) = some param ∧ ¬ Nameless (segmentOf t) := by
  obtain ⟨name, value⟩ := param
  obtain ⟨_, _, ⟨before, behind, rfl, leads, trails⟩, ⟨ahead, after, rfl, leads', trails'⟩, rfl⟩ := written
  cases name with
  | nil => cases legal.token
  | cons c rest =>
      have char := name_plain _ legal c List.mem_cons_self
      have firm : Text.trim (c :: rest ++ behind ++ '=' :: (ahead ++ quote value)) =
          c :: rest ++ behind ++ '=' :: (ahead ++ quote value) :=
        Text.trim_firm _ _ (c :: rest ++ behind ++ '=' :: (ahead ++ '"' :: value.flatMap escape)) c '"' rfl
          (by simp [quote]) (Token.char_present c char) rfl
      have segment : segmentOf (before ++ (c :: rest) ++ behind ++ '=' :: (ahead ++ quote value ++ after)) =
          marks .outside (c :: rest ++ behind ++ '=' :: (ahead ++ quote value)) := by
        rw [segment_trim, ← firm]
        refine congrArg (marks .outside) (padded_trim _ _ ⟨before, after, ?_, leads, trails'⟩)
        simp
      have spaced : IsSealed '=' (c :: rest ++ behind) :=
        sealed_append '=' _ behind (name_sealed '=' _ legal (by decide)) (sealed_blank '=' behind (by decide) trails)
      have cuts := cut_hidden '=' .outside _ (ahead ++ quote value) spaced.closed spaced.hidden
      have trimmed : Text.trim (c :: rest ++ behind) = c :: rest :=
        (padded_trim _ _ ⟨[], behind, rfl, nofun, trails⟩).trans (trim_name _ legal)
      have trimmed' : Text.trim (ahead ++ quote value) = quote value :=
        (padded_trim _ _ ⟨ahead, [], (List.append_nil _).symm, leads', nofun⟩).trans (trim_quote value)
      rw [segment, Nameless, text_marks, assignment_marks _ _ _ cuts, trimmed, trimmed', unquote_quote, legal.small]
      refine ⟨rfl, ?_⟩
      rintro ⟨⟩
      cases char

end Segments

section Elements

variable (separator : Char)

structure IsSeparator : Prop where
  foreign : Token.isChar separator = false
  present : Text.isBlank separator = false
  unquoted : separator ≠ '"'
  unsigned : separator ≠ '='

theorem value_sealed (cuts : IsSeparator separator) (value t : Text) (padded : IsPadded (quote value) t) :
    IsSealed separator t :=
  sealed_padded separator _ t cuts.present (sealed_quote separator value cuts.unquoted) padded

theorem param_sealed (cuts : IsSeparator separator) (param : Text × Text) (t : Text) (legal : IsName param.1)
    (written : ParamWritten param t) : IsSealed separator t := by
  obtain ⟨name, value, padded, padded', rfl⟩ := written
  have named := sealed_padded separator _ name cuts.present (name_sealed separator _ legal cuts.foreign) padded
  have sign : IsSealed separator ['='] := sealed_plain separator ['='] (by simpa using cuts.unsigned.symm)
  have quoted := value_sealed separator cuts _ value padded'
  exact sealed_append separator name _ named (sealed_append separator ['='] value sign quoted)

theorem forall_written {α : Type} (R : α → Text → Prop) (property : Text → Prop) (as : List α) (texts : List Text)
    (written : List.Forall₂ R as texts) (holds : ∀ a t, R a t → property t) : ∀ t ∈ texts, property t := by
  induction written with
  | nil => exact nofun
  | cons here later ih => exact List.forall_mem_cons.mpr ⟨holds _ _ here, ih⟩

theorem element_texts (cuts : IsSeparator separator) (e : Element) (proper : e.IsProper) (bare params : List Text)
    (values : List.Forall₂ (fun value text => IsPadded (quote value) text) e.value.toList bare)
    (written : List.Forall₂ ParamWritten e.params params) : ∀ t ∈ bare ++ params, IsSealed separator t := by
  rw [List.forall_mem_append]
  refine ⟨forall_written _ _ _ bare values (value_sealed separator cuts), ?_⟩
  have legal := (List.forall₂_and_left e.params params).mpr ⟨proper.named, written⟩
  exact forall_written _ _ _ params legal fun param t both => param_sealed separator cuts param t both.1 both.2

omit separator in
theorem params_read (given : List (Text × Text)) (params : List Text) (legal : ∀ param ∈ given, IsName param.1)
    (written : List.Forall₂ ParamWritten given params) :
    (params.map segmentOf).filterMap (fun ms => (assignment? ms).or (flag? ms)) = given ∧
    ∀ segment ∈ params.map segmentOf, ¬ Nameless segment := by
  induction written with
  | nil => exact ⟨rfl, nofun⟩
  | @cons param t given params here later ih =>
      rw [List.forall_mem_cons] at legal
      obtain ⟨assigned, named⟩ := segment_param param t legal.1 here
      obtain ⟨others, others_named⟩ := ih legal.2
      rw [List.map_cons, List.filterMap_cons, assigned, Option.some_or, others, List.forall_mem_cons]
      exact ⟨rfl, named, others_named⟩

omit separator in
theorem segments_read (e : Element) (proper : e.IsProper) (bare params : List Text)
    (values : List.Forall₂ (fun value text => IsPadded (quote value) text) e.value.toList bare)
    (written : List.Forall₂ ParamWritten e.params params) :
    Element.ofSegments ((bare ++ params).map segmentOf) = e ∧
      ∀ segment ∈ (bare ++ params).map segmentOf, ¬ Nameless segment := by
  obtain ⟨value, given⟩ := e
  obtain ⟨read, named⟩ := params_read given params proper.named written
  cases value with
  | some value =>
      obtain ⟨t, rest, padded, none_left, rfl⟩ := List.forall₂_cons_left_iff.mp values
      obtain rfl := List.forall₂_nil_left_iff.mp none_left
      obtain ⟨alone, unassigned, present⟩ := segment_bare value t padded
      rw [List.singleton_append, List.map_cons, Element.ofSegments, alone, unassigned, read, List.forall_mem_cons]
      exact ⟨rfl, present, named⟩
  | none =>
      obtain rfl := List.forall₂_nil_left_iff.mp values
      refine ⟨?_, named⟩
      cases written with
      | nil => exact (proper.given.elim nofun (fun some_param => some_param rfl)).elim
      | @cons param t given params here later =>
          have assigned := (segment_param param t (proper.named param List.mem_cons_self) here).1
          have signed := assigned_signed _ param assigned
          rw [List.map_cons, List.filterMap_cons, assigned] at read
          rw [List.nil_append, List.map_cons, Element.ofSegments, assigned, bare?, if_pos (.inl signed)]
          exact congrArg (Element.mk none) read

end Elements

theorem comma_cuts : IsSeparator ',' := ⟨by decide, by decide, by decide, by decide⟩

theorem semicolon_cuts : IsSeparator ';' := ⟨by decide, by decide, by decide, by decide⟩

theorem element_read (e : Element) (proper : e.IsProper) (t : Text) (written : ElementWritten e t) :
    Element.ofSegments (segmentsOf t) = e ∧ (∀ segment ∈ segmentsOf t, ¬ Nameless segment) ∧ IsSealed ',' t := by
  obtain ⟨bare, params, values, written, rfl⟩ := written
  obtain ⟨read, named⟩ := segments_read e proper bare params values written
  have some_text : bare ++ params ≠ [] := by
    intro none_given
    rw [none_given] at read
    exact absurd (read ▸ proper.given) (by decide)
  have cut : parts ';' .outside (Text.join [';'] (bare ++ params)) = bare ++ params :=
    parts_join ';' (by decide) _ some_text (element_texts ';' semicolon_cuts e proper bare params values written)
  rw [segmentsOf, cut]
  exact ⟨read, named, sealed_join ',' ';' _ (by decide)
    (element_texts ',' comma_cuts e proper bare params values written)⟩

theorem reads_written (es : List Element) (proper : ∀ e ∈ es, e.IsProper) :
    Written es (write es) ∧ ∀ t, Written es t → read t = .ok es := by
  refine ⟨written_write es, ?_⟩
  rintro t ⟨texts, written, rfl⟩
  by_cases empty : texts = []
  · subst empty
    obtain rfl := List.forall₂_nil_right_iff.mp written
    rfl
  · have both := (List.forall₂_and_left es texts).mpr ⟨proper, written⟩
    have known := both.imp fun e t both => element_read e both.1 t both.2
    have hidden := forall_written _ (IsSealed ',') es texts known fun e t read => read.2.2
    have named := forall_written _ (fun t => ∀ segment ∈ segmentsOf t, ¬ Nameless segment) es texts known
      fun e t read => read.2.1
    have made : (texts.map segmentsOf).map Element.ofSegments = es := by
      have same : List.Forall₂ Eq es ((texts.map segmentsOf).map Element.ofSegments) := by
        rw [List.map_map, List.forall₂_map_right_iff]
        exact known.imp fun e t read => read.1.symm
      rw [List.forall₂_eq_eq_eq] at same
      exact same.symm
    have closed := scan_join ',' (by decide) texts fun t member => (hidden t member).closed
    have cut : parts ',' .outside (Text.join [','] texts) = texts := parts_join ',' (by decide) texts empty hidden
    have sound : ¬ IsMalformed (Text.join [','] texts) := by
      rw [IsMalformed, not_or, Classical.not_not, ← named_pieces, cut]
      exact ⟨closed, named⟩
    rw [read_sound _ sound, elements, pieces_parts, cut, made]
    refine congrArg Except.ok (List.filter_eq_self.mpr fun e member => ?_)
    exact decide_eq_true (proper e member).given

def awkward : List Element :=
  [⟨some "a,b;c=\"\\ ".toList, [("n".toList, [])]⟩, ⟨none, [("key".toList, "é \"".toList)]⟩]

theorem awkward_proper : ∀ e ∈ awkward, e.IsProper := by
  have short (name : Text) (token : Token.isToken name = true) (small : Text.lower name = name) (value : Text) :
      ∀ param ∈ [(name, value)], IsName param.1 := List.forall_mem_singleton.mpr ⟨token, small⟩
  rw [awkward, List.forall_mem_cons, List.forall_mem_singleton]
  exact ⟨⟨by decide, short _ (by decide) (by decide) _⟩, ⟨by decide, short _ (by decide) (by decide) _⟩⟩

theorem awkward_written : Written awkward " \"a,b;c=\\\"\\\\ \" ;n\t= \"\",\u00a0key=\"é \\\"\"".toList := by
  have blank (c : Char) (here : Text.isBlank c = true) : ∀ d ∈ [c], Text.isBlank d = true :=
    List.forall_mem_singleton.mpr here
  refine ⟨[" \"a,b;c=\\\"\\\\ \" ;n\t= \"\"".toList, "\u00a0key=\"é \\\"\"".toList], .cons ?_ (.cons ?_ .nil), rfl⟩
  · refine ⟨[" \"a,b;c=\\\"\\\\ \" ".toList], ["n\t= \"\"".toList], .cons ?_ .nil, .cons ?_ .nil, rfl⟩
    · exact ⟨[' '], [' '], rfl, blank ' ' rfl, blank ' ' rfl⟩
    · refine ⟨"n\t".toList, " \"\"".toList, ?_, ?_, rfl⟩
      · exact ⟨[], ['\t'], rfl, nofun, blank '\t' rfl⟩
      · exact ⟨[' '], [], rfl, blank ' ' rfl, nofun⟩
  · refine ⟨[], ["\u00a0key=\"é \\\"\"".toList], .nil, .cons ?_ .nil, rfl⟩
    exact ⟨"\u00a0key".toList, _, ⟨['\u00a0'], [], rfl, blank '\u00a0' rfl, nofun⟩, padded_refl _, rfl⟩

theorem reads_written_awkward :
    (∀ e ∈ awkward, e.IsProper) ∧ read " \"a,b;c=\\\"\\\\ \" ;n\t= \"\",\u00a0key=\"é \\\"\"".toList = .ok awkward :=
  ⟨awkward_proper, (reads_written awkward awkward_proper).2 _ awkward_written⟩

end QuotedList

end Gateway
