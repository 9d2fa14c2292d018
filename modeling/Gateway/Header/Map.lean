import Gateway.Header.Name
import Gateway.Header.Value

set_option autoImplicit false

namespace Gateway.Header

abbrev Line := Name × Value

abbrev Field := Name × List Value

structure Map where
  entries : List Field
  distinct : (entries.map (·.1)).Nodup
  filled : ∀ entry ∈ entries, entry.2 ≠ []
deriving DecidableEq

namespace Map

def empty : Map := ⟨[], List.nodup_nil, nofun⟩

def valuesOf (name : Name) : List Field → List Value
  | [] => []
  | (key, values) :: rest => if key = name then values else valuesOf name rest

def getAll (m : Map) (name : Name) : List Value := valuesOf name m.entries

def get? (m : Map) (name : Name) : Option Value := (m.getAll name).head?

def contains (m : Map) (name : Name) : Bool := m.entries.any (·.1 = name)

def modify (name : Name) (change : List Value → List Value) : List Field → List Field
  | [] => [(name, change [])]
  | (key, values) :: rest =>
    if key = name then (key, change values) :: rest else (key, values) :: modify name change rest

theorem mem_modify (name key : Name) (change : List Value → List Value) (entries : List Field) :
    key ∈ (modify name change entries).map (·.1) ↔ key = name ∨ key ∈ entries.map (·.1) := by
  induction entries with
  | nil => simp [modify]
  | cons entry rest ih =>
      obtain ⟨first, values⟩ := entry
      unfold modify
      by_cases same : first = name
      · subst same
        simp
      · simp only [same, if_false, List.map_cons, List.mem_cons, ih]
        exact or_left_comm

theorem modify_distinct (name : Name) (change : List Value → List Value) (entries : List Field)
    (distinct : (entries.map (·.1)).Nodup) : ((modify name change entries).map (·.1)).Nodup := by
  induction entries with
  | nil => simp [modify]
  | cons entry rest ih =>
      obtain ⟨first, values⟩ := entry
      unfold modify
      by_cases same : first = name
      · simpa only [same, if_true, List.map_cons] using distinct
      · simp only [List.map_cons, List.nodup_cons] at distinct
        rw [if_neg same, List.map_cons, List.nodup_cons, mem_modify]
        exact ⟨not_or_intro same distinct.1, ih distinct.2⟩

theorem modify_filled (name : Name) (change : List Value → List Value) (entries : List Field)
    (filled : ∀ entry ∈ entries, entry.2 ≠ []) (fills : ∀ values, change values ≠ []) :
    ∀ entry ∈ modify name change entries, entry.2 ≠ [] := by
  induction entries with
  | nil => simpa [modify] using fills []
  | cons entry rest ih =>
      obtain ⟨first, values⟩ := entry
      rw [List.forall_mem_cons] at filled
      unfold modify
      by_cases same : first = name
      · simp only [same, if_true, List.forall_mem_cons]
        exact ⟨fills values, filled.2⟩
      · simp only [same, if_false, List.forall_mem_cons]
        exact ⟨filled.1, ih filled.2⟩

def append (m : Map) (name : Name) (value : Value) : Map :=
  { entries := modify name (· ++ [value]) m.entries
    distinct := modify_distinct name _ m.entries m.distinct
    filled :=
      modify_filled name _ m.entries m.filled fun _ =>
        List.append_ne_nil_of_right_ne_nil _ (List.cons_ne_nil _ _) }

def put (m : Map) (name : Name) (values : List Value) (given : values ≠ []) : Map :=
  { entries := modify name (fun _ => values) m.entries
    distinct := modify_distinct name _ m.entries m.distinct
    filled := modify_filled name _ m.entries m.filled fun _ => given }

def insert (m : Map) (name : Name) (value : Value) : Map := m.put name [value] (List.cons_ne_nil _ _)

def erase (m : Map) (name : Name) : Map :=
  { entries := m.entries.filter (·.1 ≠ name)
    distinct := (List.filter_sublist.map _).nodup m.distinct
    filled := fun entry member => m.filled entry (List.mem_filter.mp member).1 }

def lines (m : Map) : List Line :=
  m.entries.flatMap fun (name, values) => values.map fun value => (name, value)

def ofLines (lines : List Line) : Map :=
  lines.foldl (fun m (name, value) => m.append name value) empty

def sorted (m : Map) : Map :=
  { entries := m.entries.mergeSort fun a b => !List.lex b.1.text a.1.text fun c d => decide (c.toNat < d.toNat)
    distinct := ((List.mergeSort_perm _ _).map _).symm.nodup m.distinct
    filled := fun entry member => m.filled entry ((List.mergeSort_perm _ _).mem_iff.mp member) }

def putAll (m : Map) : (entries : List Field) → (∀ entry ∈ entries, entry.2 ≠ []) → Map
  | [], _ => m
  | (name, values) :: rest, given =>
    putAll (m.put name values (given _ List.mem_cons_self)) rest fun entry member =>
      given entry (List.mem_cons_of_mem _ member)

-- Each name of the other map takes the values that it has there.
def extend (m other : Map) : Map := m.putAll other.entries other.filled

end Map

end Gateway.Header
