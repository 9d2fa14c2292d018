import Gateway.Gzip.Fields
import Gateway.Proofs.Header.Map
import Gateway.Proofs.Header.Value
import Gateway.Proofs.Text

set_option autoImplicit false

namespace Gateway.Gzip.Vary

open Header (Map Name Value)

structure IsItem (item : Text) : Prop where
  some_char : item ≠ []
  clean : ',' ∉ item
  trimmed : Text.trim item = item

theorem names_cons (item s : Text) (good : IsItem item) : names (item ++ ',' :: s) = item :: names s := by
  rw [names, Text.split_append ',' item s good.clean, List.map_cons, good.trimmed,
    List.filter_cons_of_pos (by simp [good.some_char])]
  rfl

theorem names_item (item : Text) (good : IsItem item) : names item = [item] := by
  simp [names, Text.split_clean ',' item good.clean, good.trimmed, good.some_char]

theorem names_blank (s : Text) : names (' ' :: s) = names s := by
  obtain ⟨part, parts, whole, grown⟩ := Text.split_cons ',' ' ' s (by decide)
  rw [names, names, grown, whole, List.map_cons, List.map_cons, Text.trim_blank ' ' part (by decide)]

theorem names_join (items : List Text) (good : ∀ item ∈ items, IsItem item) :
    names (Text.join ", ".toList items) = items := by
  induction items with
  | nil => rfl
  | cons item rest ih =>
      rw [List.forall_mem_cons] at good
      cases rest with
      | nil => exact names_item item good.1
      | cons next others =>
          have whole : Text.join ", ".toList (item :: next :: others) =
              item ++ ',' :: ' ' :: Text.join ", ".toList (next :: others) := by simp [Text.join]
          rw [whole, names_cons item _ good.1, names_blank, ih good.2]

theorem names_items (s item : Text) (member : item ∈ names s) : IsItem item ∧ ∀ c ∈ item, c ∈ s := by
  obtain ⟨trimmed, some_char⟩ := List.mem_filter.mp member
  obtain ⟨part, split, rfl⟩ := List.mem_map.mp trimmed
  obtain ⟨clean, within⟩ := Text.mem_split ',' s part split
  refine ⟨⟨by simpa using some_char, ?_, Text.trim_trim part⟩, fun c here => within c (Text.mem_trim c part here)⟩
  exact fun here => clean (Text.mem_trim ',' part here)

structure IsWritable (item : Text) : Prop extends IsItem item where
  readable : ∀ c ∈ item, Value.IsReadable c

theorem names_writable (value : Value) (s item : Text) (read : value.text? = some s) (member : item ∈ names s) :
    IsWritable item := by
  obtain ⟨good, within⟩ := names_items s item member
  exact ⟨good, fun c here => Value.text_readable value s read c (within c here)⟩

theorem listed_writable (m : Map) (item : Text) (member : item ∈ listed m) : IsWritable item := by
  obtain ⟨s, read, here⟩ := List.mem_flatMap.mp member
  obtain ⟨value, -, text⟩ := List.mem_filterMap.mp read
  exact names_writable value s item text here

theorem join_readable (items : List Text) (writable : ∀ item ∈ items, IsWritable item) :
    ∀ c ∈ Text.join ", ".toList items, Value.IsReadable c := by
  have between : ∀ c ∈ ", ".toList, Value.IsReadable c := by
    intro c member
    have : c = ',' ∨ c = ' ' := by simpa using member
    rcases this with rfl | rfl
    · exact .inr (by decide)
    · exact .inr (by decide)
  have behind (a b : Text) (front : ∀ c ∈ a, Value.IsReadable c) (back : ∀ c ∈ b, Value.IsReadable c) :
      ∀ c ∈ a ++ b, Value.IsReadable c := List.forall_mem_append.mpr ⟨front, back⟩
  exact Text.join_keeps (fun s => ∀ c ∈ s, Value.IsReadable c) _ (List.forall_mem_nil _) between behind items
    fun item member => (writable item member).readable

theorem listed_insert (m : Map) (value : Value) (s : Text) (read : value.text? = some s) :
    listed (m.insert .vary value) = names s := by
  simp [listed, Map.getAll_insert, read]

theorem listed_present (present : List Text) (name : Text) (member : name ∈ present) :
    isListed present name = true := by
  rw [isListed, List.any_eq_true]
  exact ⟨name, member, by simp [Text.same]⟩

theorem listed_append (present more : List Text) (name : Text) :
    isListed (present ++ more) name = (isListed present name || isListed more name) := by
  simp only [isListed, List.any_append]

theorem ensure_lists (m : Map) (vary : Value) (wanted name : Text) (read : vary.text? = some wanted)
    (member : name ∈ names wanted) : isListed (listed (ensure m vary)) name = true := by
  unfold ensure
  rw [read]
  dsimp only
  cases present : listed m with
  | nil =>
      rw [listed_insert m vary wanted read]
      exact listed_present _ name member
  | cons first others =>
      dsimp only
      cases missing : (names wanted).filter (!isListed (first :: others) ·) with
      | nil =>
          rw [List.filter_eq_nil_iff] at missing
          rw [present]
          simpa using missing name member
      | cons lacking rest =>
          have writable : ∀ item ∈ (first :: others) ++ (lacking :: rest), IsWritable item := by
            intro item here
            rcases List.mem_append.mp here with old | new
            · exact listed_writable m item (present ▸ old)
            · exact names_writable vary wanted item read (List.mem_filter.mp (missing ▸ new)).1
          obtain ⟨value, made, text⟩ := Value.of_text_readable _ (join_readable _ writable)
          dsimp only
          rw [made]
          dsimp only
          rw [listed_insert m value _ text, names_join _ fun item here => (writable item here).toIsItem]
          by_cases already : isListed (first :: others) name = true
          · rw [listed_append, already, Bool.true_or]
          · refine listed_present _ name (List.mem_append_right _ ?_)
            rw [← missing, List.mem_filter]
            exact ⟨member, by simpa using already⟩

theorem ensure_others (m : Map) (vary : Value) (name : Name) (other : name ≠ .vary) :
    (ensure m vary).getAll name = m.getAll name := by
  unfold ensure
  cases vary.text? with
  | none => rfl
  | some wanted =>
      dsimp only
      cases listed m with
      | nil => exact Map.getAll_insert_other m .vary name vary other
      | cons first others =>
          dsimp only
          cases (names wanted).filter (!isListed (first :: others) ·) with
          | nil => rfl
          | cons lacking rest =>
              dsimp only
              cases Value.ofText? (Text.join ", ".toList (first :: others ++ lacking :: rest)) with
              | none => rfl
              | some value => exact Map.getAll_insert_other m .vary name value other

end Gateway.Gzip.Vary
