import Mathlib.Data.List.Nodup
import Gateway.Forwarding.Role
import Gateway.Proofs.Authority

set_option autoImplicit false

namespace Gateway.Forwarding.Roles

open Header (Name)

def IsSole (t : Roles) : Prop := ∀ name name' role, t.get? name = some role → t.get? name' = some role → name = name'

theorem mem_assign (name : Name) (role : Role) (entries : List (Name × Role)) (entry : Name × Role)
    (member : entry ∈ assign name role entries) : entry = (name, role) ∨ entry ∈ entries := by
  induction entries with
  | nil => exact .inl (by simpa [assign] using member)
  | cons first rest ih =>
      obtain ⟨key, old⟩ := first
      unfold assign at member
      by_cases same : key = name
      · rw [if_pos same, List.mem_cons, same] at member
        exact member.imp_right (List.mem_cons_of_mem _)
      · rw [if_neg same, List.mem_cons] at member
        rcases member with rfl | later
        · exact .inr List.mem_cons_self
        · exact (ih later).imp_right (List.mem_cons_of_mem _)

theorem assigned_role (name : Name) (role other : Role) (entries : List (Name × Role))
    (member : other ∈ (assign name role entries).map (·.2)) : other = role ∨ other ∈ entries.map (·.2) := by
  obtain ⟨entry, present, rfl⟩ := List.mem_map.mp member
  exact (mem_assign name role entries entry present).imp (congrArg Prod.snd) List.mem_map_of_mem

theorem assigned_name (name key : Name) (role : Role) (entries : List (Name × Role))
    (member : key ∈ (assign name role entries).map (·.1)) : key = name ∨ key ∈ entries.map (·.1) := by
  obtain ⟨entry, present, rfl⟩ := List.mem_map.mp member
  exact (mem_assign name role entries entry present).imp (congrArg Prod.fst) List.mem_map_of_mem

theorem assign_distinct (name : Name) (role : Role) (entries : List (Name × Role)) (fresh : role ∉ entries.map (·.2))
    (distinct : (entries.map (·.2)).Nodup) : ((assign name role entries).map (·.2)).Nodup := by
  induction entries with
  | nil => exact List.nodup_singleton role
  | cons entry rest ih =>
      obtain ⟨key, old⟩ := entry
      rw [List.map_cons, List.mem_cons, not_or] at fresh
      rw [List.map_cons, List.nodup_cons] at distinct
      unfold assign
      by_cases same : key = name
      · rw [if_pos same, List.map_cons, List.nodup_cons]
        exact ⟨fresh.2, distinct.2⟩
      · rw [if_neg same, List.map_cons, List.nodup_cons]
        refine ⟨?_, ih fresh.2 distinct.2⟩
        intro again
        rcases assigned_role name role old rest again with rfl | later
        · exact fresh.1 rfl
        · exact distinct.1 later

theorem collect_distinct (entries found : List (Name × Role)) (settings : List (Option Text × Role))
    (distinct : (entries.map (·.2) ++ settings.map (·.2)).Nodup) (collected : collect entries settings = .ok found) :
    (found.map (·.2)).Nodup := by
  induction settings generalizing entries with
  | nil =>
      obtain rfl := Except.ok.inj collected
      simpa using distinct
  | cons setting rest ih =>
      obtain ⟨text, role⟩ := setting
      rw [List.map_cons, List.nodup_middle, List.nodup_cons, List.mem_append, not_or] at distinct
      obtain ⟨⟨fresh, later⟩, others⟩ := distinct
      cases text with
      | none => exact ih entries others collected
      | some text =>
          rw [collect] at collected
          cases read : Header.Name.read? text with
          | none => simp [read] at collected
          | some name =>
              rw [read] at collected
              refine ih (assign name role entries) ?_ collected
              rw [List.nodup_append] at others ⊢
              refine ⟨assign_distinct name role entries fresh others.1, others.2.1, ?_⟩
              intro x front y back same
              rcases assigned_role name role x entries front with rfl | earlier
              · exact later (same ▸ back)
              · exact others.2.2 x earlier y back same

theorem of_config_sole (c : Config) (t : Roles) (read : ofConfig c = .ok t) : t.IsSole := by
  cases collected : collect [] (configured c) with
  | error e => simp [ofConfig, collected, Except.map] at read
  | ok entries =>
      obtain rfl : ⟨entries⟩ = t := by simpa [ofConfig, collected, Except.map] using read
      have distinct := collect_distinct [] entries (configured c) (by simp [configured]) collected
      have listed (name : Name) (role : Role) (found : get? ⟨entries⟩ name = some role) : (name, role) ∈ entries := by
        obtain ⟨entry, first, rfl⟩ := Option.map_eq_some_iff.mp found
        have same : entry.1 = name := by simpa using List.find?_some first
        rw [← same]
        exact List.mem_of_find?_eq_some first
      intro name name' role found found'
      exact congrArg Prod.fst
        (List.inj_on_of_nodup_map distinct (listed name role found) (listed name' role found') rfl)

def IsFree (c : Config) (name : Name) : Prop := ∀ setting ∈ configured c, setting.1.bind Header.Name.read? ≠ some name

instance (c : Config) (name : Name) : Decidable (IsFree c name) := inferInstanceAs (Decidable (∀ _ ∈ _, _))

theorem collect_names (name : Name) (entries found : List (Name × Role)) (settings : List (Option Text × Role))
    (absent : name ∉ entries.map (·.1)) (free : ∀ setting ∈ settings, setting.1.bind Header.Name.read? ≠ some name)
    (collected : collect entries settings = .ok found) : name ∉ found.map (·.1) := by
  induction settings generalizing entries with
  | nil =>
      obtain rfl := Except.ok.inj collected
      exact absent
  | cons setting rest ih =>
      rw [List.forall_mem_cons] at free
      obtain ⟨text, role⟩ := setting
      cases text with
      | none => exact ih entries absent free.2 collected
      | some text =>
          rw [collect] at collected
          cases read : Header.Name.read? text with
          | none => simp [read] at collected
          | some key =>
              rw [read] at collected
              refine ih (assign key role entries) (fun member => ?_) free.2 collected
              rcases assigned_name key name role entries member with rfl | earlier
              · exact free.1 read
              · exact absent earlier

theorem of_config_free (c : Config) (t : Roles) (read : ofConfig c = .ok t) (name : Name) (free : IsFree c name) :
    t.get? name = none := by
  obtain ⟨entries, collected, rfl⟩ := (map_ok _ _ _).mp read
  have absent := collect_names name [] entries (configured c) (by simp) free collected
  rw [get?, Option.map_eq_none_iff, List.find?_eq_none]
  intro entry member
  have other : entry.1 ≠ name := fun same => absent (List.mem_map.mpr ⟨entry, member, same⟩)
  simpa using other

theorem collect_entries (entries found : List (Name × Role)) (settings : List (Option Text × Role))
    (collected : collect entries settings = .ok found) (entry : Name × Role) (member : entry ∈ found) :
    entry ∈ entries ∨ ∃ text, (some text, entry.2) ∈ settings ∧ Header.Name.read? text = some entry.1 := by
  induction settings generalizing entries with
  | nil =>
      obtain rfl := Except.ok.inj collected
      exact .inl member
  | cons setting rest ih =>
      have later : (∃ text, (some text, entry.2) ∈ rest ∧ Header.Name.read? text = some entry.1) →
          ∃ text, (some text, entry.2) ∈ setting :: rest ∧ Header.Name.read? text = some entry.1 := by
        intro given
        obtain ⟨text, listed, read⟩ := given
        exact ⟨text, List.mem_cons_of_mem _ listed, read⟩
      obtain ⟨text, role⟩ := setting
      cases text with
      | none => exact (ih entries collected).imp_right later
      | some text =>
          rw [collect] at collected
          cases read : Header.Name.read? text with
          | none => simp [read] at collected
          | some key =>
              rw [read] at collected
              rcases ih (assign key role entries) collected with assigned | listed
              · rcases mem_assign key role entries entry assigned with rfl | earlier
                · exact .inr ⟨text, List.mem_cons_self, read⟩
                · exact .inl earlier
              · exact .inr (later listed)

theorem of_config_listed (c : Config) (t : Roles) (read : ofConfig c = .ok t) (name : Name) (role : Role)
    (plays : t.get? name = some role) :
    ∃ text, (some text, role) ∈ configured c ∧ Header.Name.read? text = some name := by
  obtain ⟨entries, collected, rfl⟩ := (map_ok _ _ _).mp read
  obtain ⟨entry, first, rfl⟩ := Option.map_eq_some_iff.mp plays
  have same : entry.1 = name := by simpa using List.find?_some first
  rw [← same]
  exact (collect_entries [] entries (configured c) collected entry
    (List.mem_of_find?_eq_some first)).resolve_left List.not_mem_nil

end Gateway.Forwarding.Roles
