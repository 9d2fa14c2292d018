import Gateway.Header.Value

set_option autoImplicit false

namespace Gateway.Header.Value

def IsReadable (c : Char) : Prop := c.toNat = 9 ∨ 32 ≤ c.toNat ∧ c.toNat < 127

instance (c : Char) : Decidable (IsReadable c) := inferInstanceAs (Decidable (_ ∨ _))

theorem isVisible_iff (b : UInt8) : isVisible b = true ↔ b.toNat = 9 ∨ 32 ≤ b.toNat ∧ b.toNat < 127 := by
  simp only [isVisible, Bool.or_eq_true, Bool.and_eq_true, beq_iff_eq, decide_eq_true_eq, UInt8.le_iff_toNat_le,
    UInt8.lt_iff_toNat_lt, ← UInt8.toNat_inj]
  rfl

theorem visible_legal (b : UInt8) (visible : isVisible b = true) : isLegal b = true := by
  rw [isVisible_iff] at visible
  simp only [isLegal, Bool.or_eq_true, Bool.and_eq_true, beq_iff_eq, bne_iff_ne, decide_eq_true_eq,
    UInt8.le_iff_toNat_le, ne_eq, ← UInt8.toNat_inj]
  rcases visible with tab | ⟨low, high⟩
  · exact .inl tab
  · exact .inr ⟨low, Nat.ne_of_lt high⟩

theorem readable_small (c : Char) (readable : IsReadable c) : c.toNat < 127 := by
  rcases readable with tab | ⟨-, high⟩
  · rw [tab]
    decide
  · exact high

theorem readable_octet (c : Char) (readable : IsReadable c) :
    ∃ b, String.utf8EncodeChar c = [b] ∧ isVisible b = true ∧ Char.ofNat b.toNat = c := by
  have small := readable_small c readable
  have single : c.utf8Size = 1 := by
    rw [Char.utf8Size_eq_one_iff, UInt32.le_iff_toNat_le]
    exact Nat.le_of_lt small
  have same : c.val.toUInt8.toNat = c.toNat := by
    rw [UInt32.toNat_toUInt8]
    exact Nat.mod_eq_of_lt (Nat.lt_trans small (by decide))
  refine ⟨c.val.toUInt8, String.utf8EncodeChar_eq_singleton single, ?_, ?_⟩
  · rw [isVisible_iff, same]
    exact readable
  · rw [same, Char.ofNat_toNat]

theorem utf8_readable (s : Text) (readable : ∀ c ∈ s, IsReadable c) :
    (Text.utf8 s).all isVisible = true ∧ Text.ofLatin1 (Text.utf8 s) = s := by
  induction s with
  | nil => exact ⟨rfl, rfl⟩
  | cons c rest ih =>
      rw [List.forall_mem_cons] at readable
      obtain ⟨b, octet, visible, same⟩ := readable_octet c readable.1
      obtain ⟨visible', same'⟩ := ih readable.2
      have whole : Text.utf8 (c :: rest) = b :: Text.utf8 rest := by
        rw [Text.utf8, List.flatMap_cons, octet]
        rfl
      rw [whole]
      refine ⟨?_, ?_⟩
      · rw [List.all_cons, visible, visible', Bool.and_true]
      · rw [Text.ofLatin1, List.map_cons, same]
        exact congrArg (c :: ·) same'

theorem readable_legal (s : Text) (readable : ∀ c ∈ s, IsReadable c) : (Text.utf8 s).all isLegal = true := by
  have visible := (utf8_readable s readable).1
  rw [List.all_eq_true] at visible ⊢
  exact fun b member => visible_legal b (visible b member)

def octets (s : Text) : Bytes := s.map fun c => UInt8.ofNat c.toNat

theorem latin1_octets (value : Value) : octets value.latin1 = value.bytes := by
  have back (b : UInt8) : UInt8.ofNat (Char.ofNat b.toNat).toNat = b := by
    have valid : b.toNat.isValidChar := .inl (Nat.lt_trans b.toNat_lt (by decide))
    rw [Char.ofNat, dif_pos valid]
    exact UInt8.ofNat_toNat
  rw [octets, latin1, Text.ofLatin1, List.map_map]
  exact (List.map_congr_left fun b _ => back b).trans (List.map_id _)

theorem of_text_some (s : Text) : (ofText? s).isSome = (Text.utf8 s).all isLegal := by
  unfold ofText? ofBytes?
  by_cases legal : (Text.utf8 s).all isLegal = true
  · rw [dif_pos legal, legal]
    rfl
  · rw [dif_neg legal, (Bool.not_eq_true _).mp legal]
    rfl

theorem of_text_readable (s : Text) (readable : ∀ c ∈ s, IsReadable c) :
    ∃ value, ofText? s = some value ∧ value.text? = some s := by
  obtain ⟨visible, same⟩ := utf8_readable s readable
  have legal := readable_legal s readable
  refine ⟨⟨Text.utf8 s, legal⟩, ?_, ?_⟩
  · rw [ofText?, ofBytes?, dif_pos legal]
  · rw [text?, if_pos visible, same]

theorem text_readable (value : Value) (s : Text) (read : value.text? = some s) : ∀ c ∈ s, IsReadable c := by
  by_cases visible : value.bytes.all isVisible = true
  · rw [text?, if_pos visible] at read
    obtain rfl : Text.ofLatin1 value.bytes = s := by simpa using read
    intro c member
    obtain ⟨b, present, rfl⟩ := List.mem_map.mp member
    have readable := (isVisible_iff b).mp (List.all_eq_true.mp visible b present)
    have valid : b.toNat.isValidChar := .inl (by omega)
    rw [IsReadable, Char.ofNat, dif_pos valid]
    exact readable
  · rw [text?, if_neg visible] at read
    cases read

end Gateway.Header.Value
