import Mathlib.Data.List.Induction
import Gateway.Header.Map

set_option autoImplicit false

namespace Gateway.Header.Map

theorem valuesOf_modify (name key : Name) (change : List Value → List Value) (entries : List Field) :
    valuesOf key (modify name change entries) =
      if key = name then change (valuesOf name entries) else valuesOf key entries := by
  induction entries with
  | nil =>
      by_cases same : key = name
      · subst same
        simp [modify, valuesOf]
      · simp [modify, valuesOf, same, Ne.symm same]
  | cons field rest ih =>
      obtain ⟨first, values⟩ := field
      unfold modify
      by_cases here : first = name
      · subst here
        by_cases same : key = first
        · simp [valuesOf, same]
        · simp [valuesOf, same, Ne.symm same]
      · rw [if_neg here]
        by_cases found : first = key
        · subst found
          simp [valuesOf, here]
        · simp only [valuesOf, found, here, if_false, ih]

theorem valuesOf_absent (name : Name) (entries : List Field) (absent : name ∉ entries.map (·.1)) :
    valuesOf name entries = [] := by
  induction entries with
  | nil => rfl
  | cons field rest ih =>
      obtain ⟨first, values⟩ := field
      rw [List.map_cons, List.mem_cons, not_or] at absent
      rw [valuesOf, if_neg (Ne.symm absent.1)]
      exact ih absent.2

theorem valuesOf_present (name : Name) (entries : List Field) (filled : ∀ field ∈ entries, field.2 ≠ [])
    (present : name ∈ entries.map (·.1)) : valuesOf name entries ≠ [] := by
  induction entries with
  | nil => simp at present
  | cons field rest ih =>
      obtain ⟨first, values⟩ := field
      rw [List.forall_mem_cons] at filled
      by_cases same : first = name
      · rw [valuesOf, if_pos same]
        exact filled.1
      · rw [valuesOf, if_neg same]
        rw [List.map_cons, List.mem_cons] at present
        exact ih filled.2 (present.resolve_left (Ne.symm same))

theorem valuesOf_filter (name key : Name) (entries : List Field) :
    valuesOf key (entries.filter (·.1 ≠ name)) = if key = name then [] else valuesOf key entries := by
  induction entries with
  | nil => simp [valuesOf]
  | cons field rest ih =>
      obtain ⟨first, values⟩ := field
      by_cases erased : first = name
      · subst erased
        rw [List.filter_cons_of_neg (by simp), ih]
        by_cases same : key = first
        · simp [same]
        · simp [valuesOf, same, Ne.symm same]
      · rw [List.filter_cons_of_pos (by simpa using erased), valuesOf, ih, valuesOf]
        by_cases found : first = key
        · subst found
          simp [erased]
        · simp only [found, if_false]

variable (m other : Map) (name key : Name)

theorem contains_iff : m.contains name = true ↔ name ∈ m.entries.map (·.1) := by
  simp [contains]

theorem contains_values : m.contains name = true ↔ m.getAll name ≠ [] := by
  rw [contains_iff]
  constructor
  · exact valuesOf_present name m.entries m.filled
  · intro some_value
    by_cases present : name ∈ m.entries.map (·.1)
    · exact present
    · exact (some_value (valuesOf_absent name m.entries present)).elim

theorem getAll_put (values : List Value) (given : values ≠ []) :
    (m.put name values given).getAll key = if key = name then values else m.getAll key :=
  valuesOf_modify name key _ m.entries

theorem getAll_insert (value : Value) :
    (m.insert name value).getAll key = if key = name then [value] else m.getAll key :=
  getAll_put m name key [value] _

theorem getAll_insert_other (value : Value) (other : key ≠ name) :
    (m.insert name value).getAll key = m.getAll key := by
  rw [getAll_insert, if_neg other]

theorem getAll_erase : (m.erase name).getAll key = if key = name then [] else m.getAll key :=
  valuesOf_filter name key m.entries

theorem getAll_append (value : Value) :
    (m.append name value).getAll key = if key = name then m.getAll name ++ [value] else m.getAll key :=
  valuesOf_modify name key _ m.entries

theorem getAll_ofLines (lines : List Line) : (ofLines lines).getAll name = (lines.filter (·.1 = name)).map (·.2) := by
  induction lines using List.reverseRecOn with
  | nil => rfl
  | append_singleton lines line ih =>
      rw [ofLines, List.foldl_append]
      change ((ofLines lines).append line.1 line.2).getAll name = _
      rw [getAll_append, List.filter_append, List.map_append, ← ih]
      by_cases same : name = line.1
      · simp [same]
      · simp [same, Ne.symm same]

theorem lines_of_entries (entries : List Field) (distinct : (entries.map (·.1)).Nodup) :
    (entries.flatMap fun (key, values) => values.map fun value => (key, value)).filter (·.1 = name) =
      (valuesOf name entries).map (name, ·) := by
  induction entries with
  | nil => rfl
  | cons field rest ih =>
      obtain ⟨first, values⟩ := field
      rw [List.map_cons, List.nodup_cons] at distinct
      rw [List.flatMap_cons, List.filter_append, ih distinct.2, valuesOf]
      by_cases same : first = name
      · subst same
        have all : (values.map fun value => (first, value)).filter (·.1 = first) = values.map (first, ·) :=
          List.filter_eq_self.mpr (List.forall_mem_map.mpr fun _ _ => decide_eq_true rfl)
        rw [valuesOf_absent first rest distinct.1, if_pos rfl, all, List.map_nil, List.append_nil]
      · have none : (values.map fun value => (first, value)).filter (·.1 = name) = [] :=
          List.filter_eq_nil_iff.mpr (List.forall_mem_map.mpr fun _ _ => by simpa using same)
        rw [if_neg same, none, List.nil_append]

theorem lines_named : m.lines.filter (·.1 = name) = (m.getAll name).map (name, ·) :=
  lines_of_entries name m.entries m.distinct

theorem mem_lines (line : Line) : line ∈ m.lines ↔ line.2 ∈ m.getAll line.1 := by
  have among : line ∈ m.lines ↔ line ∈ m.lines.filter (·.1 = line.1) := by simp
  rw [among, lines_named, List.mem_map]
  constructor
  · rintro ⟨value, member, same⟩
    rw [← same]
    exact member
  · exact fun member => ⟨line.2, member, rfl⟩

theorem lines_alike {β : Type} (tell : Line → List β) (single : ∀ x y, tell x ≠ [] → tell y ≠ [] → x.1 = y.1)
    (same : ∀ name, m.getAll name = other.getAll name) : m.lines.flatMap tell = other.lines.flatMap tell := by
  by_cases silent : ∀ x, tell x = []
  · rw [List.flatMap_eq_nil_iff.mpr fun x _ => silent x, List.flatMap_eq_nil_iff.mpr fun x _ => silent x]
  · obtain ⟨x, tells⟩ := not_forall.mp silent
    have alone (lines : List Line) : (lines.filter (·.1 = x.1)).flatMap tell = lines.flatMap tell := by
      induction lines with
      | nil => rfl
      | cons y rest ih =>
          by_cases named : y.1 = x.1
          · rw [List.filter_cons_of_pos (by simpa using named), List.flatMap_cons, List.flatMap_cons, ih]
          · have quiet : tell y = [] := Classical.not_not.mp fun told => named (single y x told tells)
            rw [List.filter_cons_of_neg (by simpa using named), List.flatMap_cons, quiet, List.nil_append, ih]
    rw [← alone m.lines, ← alone other.lines, lines_named, lines_named, same]

theorem getAll_putAll (entries : List Field) (distinct : (entries.map (·.1)).Nodup)
    (given : ∀ field ∈ entries, field.2 ≠ []) :
    (m.putAll entries given).getAll name =
      if name ∈ entries.map (·.1) then valuesOf name entries else m.getAll name := by
  induction entries generalizing m with
  | nil => simp [putAll]
  | cons field rest ih =>
      obtain ⟨first, values⟩ := field
      rw [List.map_cons, List.nodup_cons] at distinct
      rw [putAll, ih _ distinct.2, getAll_put]
      by_cases same : name = first
      · subst same
        simp [distinct.1, valuesOf]
      · simp only [List.map_cons, List.mem_cons, same, false_or, if_false, valuesOf, Ne.symm same]

theorem getAll_extend :
    (m.extend other).getAll name = if other.contains name then other.getAll name else m.getAll name := by
  rw [extend, getAll_putAll m name other.entries other.distinct]
  simp only [contains_iff, getAll]

theorem modify_same (name : Name) (values : List Value) (entries : List Field) (given : values ≠ [])
    (same : valuesOf name entries = values) : modify name (fun _ => values) entries = entries := by
  induction entries with
  | nil => exact absurd same.symm given
  | cons field rest ih =>
      obtain ⟨first, present⟩ := field
      rw [valuesOf] at same
      rw [modify]
      by_cases here : first = name
      · rw [if_pos here] at same
        rw [if_pos here, same]
      · rw [if_neg here] at same
        rw [if_neg here, ih same]

theorem insert_same (value : Value) (same : m.getAll name = [value]) : m.insert name value = m := by
  have entries := modify_same name [value] m.entries (List.cons_ne_nil _ _) same
  obtain ⟨_, _, _⟩ := m
  simpa only [insert, put, Map.mk.injEq] using entries

theorem filter_modify (name : Name) (change : List Value → List Value) (entries : List Field) :
    (modify name change entries).filter (·.1 ≠ name) = entries.filter (·.1 ≠ name) := by
  induction entries with
  | nil => simp [modify]
  | cons field rest ih =>
      obtain ⟨first, values⟩ := field
      rw [modify]
      by_cases here : first = name
      · rw [if_pos here, List.filter_cons_of_neg (by simpa using here), List.filter_cons_of_neg (by simpa using here)]
      · rw [if_neg here, List.filter_cons_of_pos (by simpa using here),
          List.filter_cons_of_pos (by simpa using here), ih]

theorem erase_insert (value : Value) : (m.insert name value).erase name = m.erase name := by
  have entries := filter_modify name (fun _ => [value]) m.entries
  simpa only [erase, insert, put, Map.mk.injEq] using entries

theorem lines_modify {β : Type} (tell : Line → List β) (name : Name) (silent : ∀ value, tell (name, value) = [])
    (change : List Value → List Value) (entries : List Field) :
    ((modify name change entries).flatMap fun (key, values) => values.map fun value => (key, value)).flatMap tell =
      (entries.flatMap fun (key, values) => values.map fun value => (key, value)).flatMap tell := by
  have quiet (values : List Value) : (values.map fun value => (name, value)).flatMap tell = [] := by
    rw [List.flatMap_eq_nil_iff]
    exact List.forall_mem_map.mpr fun value _ => silent value
  induction entries with
  | nil => simp [modify, quiet]
  | cons field rest ih =>
      obtain ⟨first, values⟩ := field
      rw [modify]
      by_cases here : first = name
      · subst here
        simp only [if_true, List.flatMap_cons, List.flatMap_append, quiet]
      · simp only [here, if_false, List.flatMap_cons, List.flatMap_append, ih]

theorem lines_insert {β : Type} (tell : Line → List β) (value : Value)
    (silent : ∀ value, tell (name, value) = []) : (m.insert name value).lines.flatMap tell = m.lines.flatMap tell :=
  lines_modify tell name silent _ m.entries

end Gateway.Header.Map
