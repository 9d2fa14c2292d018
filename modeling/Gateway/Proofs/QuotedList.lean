import Gateway.Proofs.Authority
import Gateway.Proofs.Text
import Gateway.QuotedList

set_option autoImplicit false

namespace Gateway.QuotedList

variable (separator : Char) (q : Scan)

theorem scan_append (before after : Text) : scan q (before ++ after) = scan (scan q before) after := List.foldl_append

theorem next_outside (c : Char) (plain : c ≠ '"') : Scan.outside.next c = .outside := if_neg plain

theorem parts_some (s : Text) : ∃ part more, parts separator q s = part :: more := by
  cases s with
  | nil => exact ⟨[], [], rfl⟩
  | cons c rest =>
      unfold parts
      split
      · exact ⟨_, _, rfl⟩
      · split <;> exact ⟨_, _, rfl⟩

theorem parts_separator (rest : Text) :
    parts separator .outside (separator :: rest) = [] :: parts separator .outside rest := by
  rw [parts, if_pos ⟨rfl, rfl⟩]

theorem parts_cons (c : Char) (rest part : Text) (more : List Text) (inner : ¬ (c = separator ∧ q = .outside))
    (found : parts separator (q.next c) rest = part :: more) : parts separator q (c :: rest) = (c :: part) :: more := by
  rw [parts, if_neg inner, found]

theorem parts_append (plain : separator ≠ '"') (before after : Text) (closed : scan q before = .outside) :
    parts separator q (before ++ separator :: after) = parts separator q before ++ parts separator .outside after := by
  induction before generalizing q with
  | nil =>
      change q = .outside at closed
      rw [closed, List.nil_append, parts_separator]
      rfl
  | cons c rest ih =>
      change scan (q.next c) rest = .outside at closed
      rw [List.cons_append]
      by_cases cuts : c = separator ∧ q = .outside
      · obtain ⟨rfl, rfl⟩ := cuts
        rw [next_outside c plain] at closed
        rw [parts_separator, ih .outside closed, parts_separator]
        rfl
      · obtain ⟨part, more, found⟩ := parts_some separator (q.next c) rest
        rw [parts_cons separator q c rest part more cuts found]
        apply parts_cons separator q c _ part _ cuts
        rw [ih (q.next c) closed, found]
        rfl

theorem split_ok (s : Text) (pieces : List Text) :
    split separator s = .ok pieces ↔ scan .outside s = .outside ∧ parts separator .outside s = pieces := by
  unfold split Scan.closed
  by_cases closed : scan .outside s = .outside
  · simp [closed]
  · simp [closed]

-- The whole text is only named where something is wrong.
theorem read_segments_any (whole whole' : Text) (first : Bool) (e e' : Element) (raws : List Text)
    (read : readSegments whole first e raws = .ok e') : readSegments whole' first e raws = .ok e' := by
  induction raws generalizing first e with
  | nil => exact read
  | cons raw rest ih =>
      rw [readSegments] at read ⊢
      cases segment : readSegment raw with
      | none => simp [segment] at read
      | some known =>
          rw [segment] at read
          exact ih false _ read

theorem read_element_any (whole whole' raw : Text) (es : List Element) (read : readElement whole raw = .ok es) :
    readElement whole' raw = .ok es := by
  unfold readElement at read ⊢
  by_cases empty : (Text.trim raw).isEmpty = true
  · rw [if_pos empty] at read ⊢
    exact read
  · rw [if_neg empty, bind_ok] at read ⊢
    obtain ⟨segments, cut, read⟩ := read
    obtain ⟨e, known, read⟩ := (bind_ok _ _ _).mp read
    exact ⟨segments, cut, (bind_ok _ _ _).mpr ⟨e, read_segments_any whole whole' _ _ _ _ known, read⟩⟩

theorem read_elements_cons (whole raw : Text) (rest : List Text) (es : List Element) :
    readElements whole (raw :: rest) = .ok es ↔
      ∃ first others, readElement whole raw = .ok first ∧ readElements whole rest = .ok others ∧
      first ++ others = es := by
  rw [readElements, bind_ok]
  simp only [bind_ok, Except.ok.injEq, exists_and_left]

theorem read_elements_append (whole : Text) (raws raws' : List Text) (es : List Element) :
    readElements whole (raws ++ raws') = .ok es ↔
      ∃ first others, readElements whole raws = .ok first ∧ readElements whole raws' = .ok others ∧
      first ++ others = es := by
  induction raws generalizing es with
  | nil => simp [readElements]
  | cons raw rest ih =>
      simp only [List.cons_append, read_elements_cons, ih]
      constructor
      · rintro ⟨front, _, here, ⟨middle, back, between, there, rfl⟩, rfl⟩
        exact ⟨front ++ middle, back, ⟨front, middle, here, between, rfl⟩, there, List.append_assoc _ _ _⟩
      · rintro ⟨_, back, ⟨front, middle, here, between, rfl⟩, there, rfl⟩
        exact ⟨front, middle ++ back, here, ⟨middle, back, between, there, rfl⟩, (List.append_assoc _ _ _).symm⟩

theorem read_elements_any (whole whole' : Text) (raws : List Text) (es : List Element)
    (read : readElements whole raws = .ok es) : readElements whole' raws = .ok es := by
  induction raws generalizing es with
  | nil => exact read
  | cons raw rest ih =>
      obtain ⟨first, others, here, later, same⟩ := (read_elements_cons whole raw rest es).mp read
      exact (read_elements_cons whole' raw rest es).mpr
        ⟨first, others, read_element_any whole whole' raw first here, ih others later, same⟩

theorem read_iff (value : Text) (es : List Element) :
    read value = .ok es ↔ scan .outside value = .outside ∧ readElements value (parts ',' .outside value) = .ok es := by
  rw [read, bind_ok]
  simp only [split_ok]
  constructor
  · rintro ⟨raws, ⟨closed, rfl⟩, known⟩
    exact ⟨closed, known⟩
  · exact fun both => ⟨_, ⟨both.1, rfl⟩, both.2⟩

theorem read_closed (value : Text) (es : List Element) (known : read value = .ok es) : scan .outside value = .outside :=
  ((read_iff value es).mp known).1

theorem read_append (before after : Text) (es : List Element) (closed : scan .outside before = .outside) :
    read (before ++ ',' :: after) = .ok es ↔
      ∃ first others, read before = .ok first ∧ read after = .ok others ∧ first ++ others = es := by
  have ends : scan .outside (before ++ ',' :: after) = scan .outside after := by
    rw [scan_append, closed]
    rfl
  simp only [read_iff, ends, closed, parts_append ',' .outside (by decide) before after closed, read_elements_append]
  constructor
  · rintro ⟨closed', first, others, here, there, same⟩
    exact ⟨first, others, ⟨trivial, read_elements_any _ _ _ _ here⟩,
      ⟨closed', read_elements_any _ _ _ _ there⟩, same⟩
  · rintro ⟨first, others, ⟨-, here⟩, ⟨closed', there⟩, same⟩
    exact ⟨closed', first, others, read_elements_any _ _ _ _ here, read_elements_any _ _ _ _ there, same⟩

section Blank

variable (c : Char) (blank : Text.isBlank c = true)

include blank

theorem parts_blank (foreign : Text.isBlank separator = false) (s part : Text) (more : List Text)
    (found : parts separator .outside s = part :: more) : parts separator .outside (c :: s) = (c :: part) :: more := by
  have inner : ¬ (c = separator ∧ Scan.outside = .outside) := by
    rintro ⟨rfl, -⟩
    rw [foreign] at blank
    cases blank
  apply parts_cons separator .outside c s part more inner
  rw [next_outside c (by rintro rfl; cases blank), found]

theorem scan_blank (s : Text) : scan .outside (c :: s) = scan .outside s := by
  change scan (Scan.outside.next c) s = _
  rw [next_outside c (by rintro rfl; cases blank)]

theorem read_segment_blank (raw : Text) : readSegment (c :: raw) = readSegment raw := by
  unfold readSegment
  rw [Text.trim_blank c raw blank]

theorem read_element_blank (whole raw : Text) (es : List Element) :
    readElement whole (c :: raw) = .ok es ↔ readElement whole raw = .ok es := by
  obtain ⟨part, more, found⟩ := parts_some ';' .outside raw
  have same (first : Bool) (e : Element) :
      readSegments whole first e ((c :: part) :: more) = readSegments whole first e (part :: more) := by
    rw [readSegments, read_segment_blank c blank, readSegments]
  unfold readElement
  rw [Text.trim_blank c raw blank]
  by_cases empty : (Text.trim raw).isEmpty = true
  · rw [if_pos empty, if_pos empty]
  · rw [if_neg empty, if_neg empty, bind_ok, bind_ok]
    simp only [split_ok, scan_blank c blank, found, parts_blank ';' c blank (by decide) raw part more found, and_assoc,
      exists_and_left, exists_eq_left', same]

theorem read_blank (s : Text) (es : List Element) : read (c :: s) = .ok es ↔ read s = .ok es := by
  obtain ⟨part, more, found⟩ := parts_some ',' .outside s
  rw [read_iff, read_iff, scan_blank c blank, found, parts_blank ',' c blank (by decide) s part more found]
  simp only [read_elements_cons, read_element_blank c blank]
  constructor
  · rintro ⟨closed, first, others, here, later, same⟩
    exact ⟨closed, first, others, read_element_any _ _ _ _ here, read_elements_any _ _ _ _ later, same⟩
  · rintro ⟨closed, first, others, here, later, same⟩
    exact ⟨closed, first, others, read_element_any _ _ _ _ here, read_elements_any _ _ _ _ later, same⟩

end Blank

theorem read_all_cons (value : Text) (rest : List Text) (es : List Element) :
    readAll (value :: rest) = .ok es ↔
      ∃ first others, read value = .ok first ∧ readAll rest = .ok others ∧ first ++ others = es := by
  rw [readAll, bind_ok]
  simp only [bind_ok, Except.ok.injEq, exists_and_left]

theorem read_all_ok (values : List Text) :
    (∃ es, readAll values = .ok es) ↔ ∀ value ∈ values, ∃ es, read value = .ok es := by
  induction values with
  | nil => exact iff_of_true ⟨[], rfl⟩ nofun
  | cons value rest ih =>
      rw [List.forall_mem_cons, ← ih]
      constructor
      · rintro ⟨es, whole⟩
        obtain ⟨first, others, here, later, -⟩ := (read_all_cons value rest es).mp whole
        exact ⟨⟨first, here⟩, others, later⟩
      · rintro ⟨⟨first, here⟩, others, later⟩
        exact ⟨first ++ others, (read_all_cons value rest _).mpr ⟨first, others, here, later, rfl⟩⟩

theorem mem_read_all (values : List Text) (es : List Element) (whole : readAll values = .ok es) (e : Element) :
    e ∈ es ↔ ∃ value ∈ values, ∃ part, read value = .ok part ∧ e ∈ part := by
  induction values generalizing es with
  | nil =>
      obtain rfl := Except.ok.inj whole
      simp
  | cons value rest ih =>
      obtain ⟨first, others, here, later, rfl⟩ := (read_all_cons value rest es).mp whole
      rw [List.mem_append, ih others later, List.exists_mem_cons_iff, here]
      simp only [Except.ok.injEq, exists_eq_left']

abbrev AreRead (values : List Text) (parts : List (List Element)) : Prop :=
  List.Forall₂ (fun value part => read value = .ok part) values parts

theorem accepted_read (values : List Text) (accepted : ∀ value ∈ values, ∃ es, read value = .ok es) :
    ∃ parts, AreRead values parts := by
  induction values with
  | nil => exact ⟨[], .nil⟩
  | cons value rest ih =>
      rw [List.forall_mem_cons] at accepted
      obtain ⟨part, here⟩ := accepted.1
      obtain ⟨parts, later⟩ := ih accepted.2
      exact ⟨part :: parts, .cons here later⟩

theorem read_all_flatten (values : List Text) (parts : List (List Element)) (known : AreRead values parts) :
    readAll values = .ok parts.flatten := by
  induction known with
  | nil => rfl
  | cons here later ih => exact (read_all_cons _ _ _).mpr ⟨_, _, here, ih, rfl⟩

theorem read_join (values : List Text) (parts : List (List Element)) (some_value : values ≠ [])
    (known : AreRead values parts) :
    read (Text.join [','] values) = .ok parts.flatten := by
  induction known with
  | nil => exact (some_value rfl).elim
  | @cons value part rest more here later ih =>
      cases rest with
      | nil =>
          cases later
          exact here.trans (congrArg Except.ok (List.append_nil part).symm)
      | cons next rest =>
          have joined := ih (List.cons_ne_nil next rest)
          rw [Text.join_cons _ _ _ (List.cons_ne_nil next rest), List.append_assoc, List.singleton_append]
          exact (read_append value _ _ (read_closed value part here)).mpr ⟨part, more.flatten, here, joined, rfl⟩

theorem read_all_fault (before : List Text) (value : Text) (after : List Text) (e : ParseError)
    (accepted : ∀ front ∈ before, ∃ es, read front = .ok es) (fault : read value = .error e) :
    readAll (before ++ value :: after) = .error e := by
  induction before with
  | nil =>
      rw [List.nil_append, readAll, fault]
      rfl
  | cons front rest ih =>
      rw [List.forall_mem_cons] at accepted
      obtain ⟨es, here⟩ := accepted.1
      rw [List.cons_append, readAll, here, ih accepted.2]
      rfl

theorem reads_joined (values : List Text) (some_value : values ≠ []) :
    ((∀ value ∈ values, ∃ es, read value = .ok es) →
      ∃ parts, AreRead values parts ∧ readAll values = .ok parts.flatten ∧
        read (Text.join [','] values) = .ok parts.flatten) ∧
    ∀ before value after e, values = before ++ value :: after → (∀ front ∈ before, ∃ es, read front = .ok es) →
      read value = .error e → readAll values = .error e := by
  refine ⟨fun accepted => ?_, ?_⟩
  · obtain ⟨parts, known⟩ := accepted_read values accepted
    exact ⟨parts, known, read_all_flatten values parts known, read_join values parts some_value known⟩
  · rintro before value after e rfl accepted fault
    exact read_all_fault before value after e accepted fault

theorem reads_joined_three :
    let first : Element := ⟨some ['a'], [(['q'], [','])]⟩
    let last : Element := ⟨some ['b'], []⟩
    AreRead ["a;q=\",\"".toList, [], "b".toList] [[first], [], [last]] ∧
      readAll ["a;q=\",\"".toList, [], "b".toList] = .ok [first, last] ∧
      read "a;q=\",\",,b".toList = .ok [first, last] := by
  intro first last
  have here : read "a;q=\",\"".toList = .ok [first] := rfl
  have between : read [] = .ok [] := rfl
  have there : read "b".toList = .ok [last] := rfl
  have accepted : ∀ value ∈ ["a;q=\",\"".toList, [], "b".toList], ∃ es, read value = .ok es := by
    rw [List.forall_mem_cons, List.forall_mem_cons, List.forall_mem_singleton]
    exact ⟨⟨_, here⟩, ⟨_, between⟩, ⟨_, there⟩⟩
  obtain ⟨parts, known, all, joined⟩ := (reads_joined _ (List.cons_ne_nil _ _)).1 accepted
  obtain rfl : parts = [[first], [], [last]] := by
    cases known with
    | cons one rest =>
        cases rest with
        | cons two rest =>
            cases rest with
            | cons three rest =>
                cases rest
                cases one.symm.trans here
                cases two.symm.trans between
                cases three.symm.trans there
                rfl
  exact ⟨known, all, joined⟩

end Gateway.QuotedList
