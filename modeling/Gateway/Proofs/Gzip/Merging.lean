import Gateway.Proofs.Gzip.Vary

set_option autoImplicit false

namespace Gateway.Gzip.Vary

open Header (Map Name Value)

def IsMissing (present : List Text) (name : Text) : Prop :=
  ['*'] ∉ present ∧ ∀ other ∈ present, Text.lower other ≠ Text.lower name

instance (present : List Text) (name : Text) : Decidable (IsMissing present name) :=
  inferInstanceAs (Decidable (_ ∧ _))

def missing (present wanted : List Text) : List Text := wanted.filter (IsMissing present ·)

theorem missing_iff (present : List Text) (name : Text) : IsMissing present name ↔ isListed present name = false := by
  simp only [IsMissing, isListed, List.any_eq_false, Text.same, Bool.or_eq_true, decide_eq_true_eq, beq_iff_eq, not_or,
    forall_and]
  refine and_congr_left fun _ =>
    ⟨fun absent other member same => absent (same ▸ member), fun each member => each _ member rfl⟩

theorem filter_missing (present wanted : List Text) : wanted.filter (!isListed present ·) = missing present wanted :=
  List.filter_congr fun name _ => by rw [Bool.eq_iff_iff, Bool.not_eq_true', decide_eq_true_eq, missing_iff]

variable (m : Map) (vary : Value) (wanted : Text)

theorem mem_missing (present : List Text) (name : Text) (member : name ∈ missing present (names wanted)) :
    name ∈ names wanted := List.mem_of_mem_filter member

theorem merged_writable (read : vary.text? = some wanted) :
    ∀ item ∈ listed m ++ missing (listed m) (names wanted), IsWritable item := by
  intro item here
  rcases List.mem_append.mp here with old | new
  · exact listed_writable m item old
  · exact names_writable vary wanted item read (mem_missing wanted _ item new)

theorem merged_value (read : vary.text? = some wanted) :
    ∃ value s, Value.ofText? (Text.join ", ".toList (listed m ++ missing (listed m) (names wanted))) = some value ∧
      value.text? = some s ∧ names s = listed m ++ missing (listed m) (names wanted) := by
  have writable := merged_writable m vary wanted read
  obtain ⟨value, made, text⟩ := Value.of_text_readable _ (join_readable _ writable)
  exact ⟨value, _, made, text, names_join _ fun item here => (writable item here).toIsItem⟩

theorem ensure_cases (read : vary.text? = some wanted) (given : names wanted ≠ []) :
    missing (listed m) (names wanted) = [] ∧ ensure m vary = m ∨
    missing (listed m) (names wanted) ≠ [] ∧ ∃ value s, value.text? = some s ∧
      names s = listed m ++ missing (listed m) (names wanted) ∧ ensure m vary = m.insert .vary value := by
  unfold ensure
  rw [read]
  dsimp only
  cases present : listed m with
  | nil =>
      have all : missing [] (names wanted) = names wanted := List.filter_eq_self.mpr fun _ _ => rfl
      rw [all]
      exact .inr ⟨given, vary, wanted, read, rfl, rfl⟩
  | cons first others =>
      obtain ⟨value, s, made, text, merged⟩ := merged_value m vary wanted read
      rw [present] at made merged
      dsimp only
      rw [filter_missing]
      cases lacking : missing (first :: others) (names wanted) with
      | nil => exact .inl ⟨rfl, rfl⟩
      | cons name rest =>
          rw [lacking] at made merged
          dsimp only
          rw [made]
          exact .inr ⟨List.cons_ne_nil _ _, value, s, text, merged, rfl⟩

structure Merged (m : Map) (wanted : List Text) (merged : Map) : Prop where
  names : listed merged = listed m ++ missing (listed m) wanted
  kept : listed m <+: listed merged
  covered : ∀ name ∈ wanted, ['*'] ∈ listed merged ∨ ∃ other ∈ listed merged, Text.lower other = Text.lower name
  written : (Value.ofText? (Text.join ", ".toList (listed m ++ missing (listed m) wanted))).isSome = true
  others : merged.erase .vary = m.erase .vary
  untouched : missing (listed m) wanted = [] → merged = m

theorem ensure_names (read : vary.text? = some wanted) (given : names wanted ≠ []) :
    listed (ensure m vary) = listed m ++ missing (listed m) (names wanted) := by
  rcases ensure_cases m vary wanted read given with ⟨none, same⟩ | ⟨-, value, s, text, merged, inserted⟩
  · rw [same, none, List.append_nil]
  · rw [inserted, listed_insert m value s text, merged]

theorem present_iff (present : List Text) (name : Text) :
    isListed present name = true ↔ ['*'] ∈ present ∨ ∃ other ∈ present, Text.lower other = Text.lower name := by
  rw [← Bool.not_eq_false, ← missing_iff, IsMissing, not_and_or, not_not]
  simp only [ne_eq, not_forall, not_not, exists_prop]

theorem ensure_merges (read : vary.text? = some wanted) (given : names wanted ≠ []) :
    Merged m (names wanted) (ensure m vary) ∧ ensure (ensure m vary) vary = ensure m vary := by
  have whole := ensure_names m vary wanted read given
  have lists (name : Text) := ensure_lists m vary wanted name read
  refine ⟨⟨whole, ⟨_, whole.symm⟩, fun name member => (present_iff _ name).mp (lists name member), ?_, ?_, ?_⟩, ?_⟩
  · obtain ⟨value, -, made, -⟩ := merged_value m vary wanted read
    rw [made]
    rfl
  · rcases ensure_cases m vary wanted read given with ⟨-, same⟩ | ⟨-, value, -, -, -, inserted⟩
    · rw [same]
    · rw [inserted, Map.erase_insert]
  · intro none
    rcases ensure_cases m vary wanted read given with ⟨-, same⟩ | ⟨some, -⟩
    · exact same
    · exact absurd none some
  · have none : missing (listed (ensure m vary)) (names wanted) = [] := by
      rw [← filter_missing, List.filter_eq_nil_iff]
      exact fun name member => by simp [lists name member]
    rcases ensure_cases (ensure m vary) vary wanted read given with ⟨-, same⟩ | ⟨some, -⟩
    · exact same
    · exact absurd none some

def scattered : Map :=
  .ofLines [(.vary, ⟨Text.utf8 "Origin, ,Origin".toList, by decide⟩),
    (.contentType, ⟨Text.utf8 "text/plain".toList, by decide⟩),
    (.vary, ⟨[0xff], by decide⟩), (.vary, ⟨Text.utf8 " Accept-Language".toList, by decide⟩)]

def asked : Value := ⟨Text.utf8 "Accept-Encoding, ORIGIN,".toList, by decide⟩

theorem ensure_merges_scattered :
    asked.text? = some "Accept-Encoding, ORIGIN,".toList ∧ names "Accept-Encoding, ORIGIN,".toList ≠ [] ∧
    listed (ensure scattered asked) = ["Origin", "Origin", "Accept-Language", "Accept-Encoding"].map String.toList ∧
    (ensure scattered asked).erase .vary = scattered.erase .vary ∧
    ensure (ensure scattered asked) asked = ensure scattered asked := by
  have read : asked.text? = some "Accept-Encoding, ORIGIN,".toList := by decide +kernel
  have given : names "Accept-Encoding, ORIGIN,".toList ≠ [] := by decide +kernel
  obtain ⟨merged, again⟩ := ensure_merges scattered asked _ read given
  have lacking : listed scattered ++ missing (listed scattered) (names "Accept-Encoding, ORIGIN,".toList) =
      ["Origin", "Origin", "Accept-Language", "Accept-Encoding"].map String.toList := by decide +kernel
  exact ⟨read, given, merged.names.trans lacking, merged.others, again⟩

end Gateway.Gzip.Vary
