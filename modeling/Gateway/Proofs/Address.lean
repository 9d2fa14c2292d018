import Gateway.Address.Ip
import Gateway.Proofs.Header.Value
import Gateway.Proofs.Text

set_option autoImplicit false

namespace Gateway

open Header.Value (IsReadable)

namespace Address

def IsAddressChar (c : Char) : Prop := (hexDigit? c).isSome = true ∨ c = ':' ∨ c = '.'

instance (c : Char) : Decidable (IsAddressChar c) := inferInstanceAs (Decidable (_ ∨ _))

theorem digit_readable (c : Char) (digit : c.isDigit = true) : IsReadable c := by
  rw [Char.isDigit_iff_toNat] at digit
  exact .inr ⟨Nat.le_trans (by decide) digit.1, Nat.lt_of_le_of_lt digit.2 (by decide)⟩

theorem hex_digit_readable (c : Char) (value : Nat) (read : hexDigit? c = some value) : IsReadable c := by
  unfold hexDigit? at read
  split at read
  · rename_i digit
    exact digit_readable c digit
  · split at read
    · rename_i small
      exact .inr ⟨Nat.le_trans (by decide) small.1, Nat.lt_of_le_of_lt small.2 (by decide)⟩
    · split at read
      · rename_i capital
        exact .inr ⟨Nat.le_trans (by decide) capital.1, Nat.lt_of_le_of_lt capital.2 (by decide)⟩
      · cases read

theorem address_char_readable (c : Char) (legal : IsAddressChar c) : IsReadable c := by
  rcases legal with digit | rfl | rfl
  · obtain ⟨value, read⟩ := Option.isSome_iff_exists.mp digit
    exact hex_digit_readable c value read
  · decide
  · decide

theorem digit_char (c : Char) (digit : c.isDigit = true) : IsAddressChar c := by
  refine .inl ?_
  rw [hexDigit?, if_pos digit]
  rfl

theorem hex_number_chars (value : Nat) (s : Text) (n : Nat) (read : hexNumber? value s = some n) :
    ∀ c ∈ s, IsAddressChar c := by
  induction s generalizing value with
  | nil => exact nofun
  | cons c rest ih =>
      obtain ⟨d, digit, later⟩ := Option.bind_eq_some_iff.mp read
      exact List.forall_mem_cons.mpr ⟨.inl (Option.isSome_of_eq_some digit), ih _ later⟩

theorem group_chars (s : Text) (n : Nat) (read : group? s = some n) : ∀ c ∈ s, IsAddressChar c := by
  unfold group? at read
  split at read
  · cases read
  · exact hex_number_chars 0 s n read

theorem octet_chars (s : Text) (n : Nat) (read : octet? s = some n) : ∀ c ∈ s, IsAddressChar c := by
  unfold octet? at read
  split at read
  · cases read
  · rename_i sized
    have digits : s.all Char.isDigit = true := by
      simp only [Bool.or_eq_true, not_or, Bool.not_eq_true', Bool.not_eq_false] at sized
      exact sized.2
    exact fun c member => digit_char c (List.all_eq_true.mp digits c member)

theorem map_chars {α : Type} (read? : Text → Option α)
    (legal : ∀ part a, read? part = some a → ∀ c ∈ part, IsAddressChar c) (parts : List Text) (values : List α)
    (read : parts.mapM read? = some values) : ∀ part ∈ parts, ∀ c ∈ part, IsAddressChar c := by
  induction parts generalizing values with
  | nil => exact nofun
  | cons part rest ih =>
      rw [List.mapM_cons] at read
      obtain ⟨a, first, later⟩ := Option.bind_eq_some_iff.mp read
      obtain ⟨others, found, -⟩ := Option.bind_eq_some_iff.mp later
      exact List.forall_mem_cons.mpr ⟨legal part a first, ih others found⟩

theorem Ipv4.read_chars (s : Text) (a : Ipv4) (read : read? s = some a) : ∀ c ∈ s, IsAddressChar c := by
  unfold read? at read
  split at read
  · rename_i octets
    exact Text.split_within '.' s IsAddressChar (.inr (.inr rfl)) (map_chars octet? octet_chars _ _ octets)
  · cases read

namespace Ipv6

theorem parts_chars (tail : Bool) (parts : List Text) (groups : List Nat) (read : parts? tail parts = some groups) :
    ∀ part ∈ parts, ∀ c ∈ part, IsAddressChar c := by
  induction parts generalizing groups with
  | nil => exact nofun
  | cons part rest ih =>
      cases rest with
      | nil =>
          rw [List.forall_mem_singleton]
          rw [parts?] at read
          split at read
          · rename_i g single
            exact group_chars part g single
          · split at read
            · split at read
              · rename_i dotted
                exact Ipv4.read_chars part _ dotted
              · cases read
            · cases read
      | cons next rest =>
          obtain ⟨g, first, later⟩ := Option.bind_eq_some_iff.mp read
          obtain ⟨others, found, -⟩ := Option.map_eq_some_iff.mp later
          exact List.forall_mem_cons.mpr ⟨group_chars part g first, ih others found⟩

theorem side_chars (tail : Bool) (s : Text) (groups : List Nat) (read : side? tail s = some groups) :
    ∀ c ∈ s, IsAddressChar c := by
  unfold side? at read
  split at read
  · rename_i empty
    rw [List.isEmpty_iff.mp empty]
    exact nofun
  · exact Text.split_within ':' s IsAddressChar (.inr (.inl rfl)) (parts_chars tail _ groups read)

theorem gap_whole (s before after : Text) (found : gap? s = some (before, after)) :
    s = before ++ ':' :: ':' :: after := by
  fun_induction gap? s generalizing before with
  | case1 rest =>
      cases found
      rfl
  | case2 c rest other ih =>
      obtain ⟨⟨front, back⟩, later, same⟩ := Option.map_eq_some_iff.mp found
      cases same
      rw [ih front later]
      rfl
  | case3 => cases found

theorem read_chars (s : Text) (a : Ipv6) (read : read? s = some a) : ∀ c ∈ s, IsAddressChar c := by
  unfold read? at read
  split at read
  · split at read
    · rename_i groups side
      exact side_chars true s groups side
    · cases read
  · rename_i before after gap
    split at read
    · rename_i front back
      rw [gap_whole s before after gap, List.forall_mem_append, List.forall_mem_cons, List.forall_mem_cons]
      exact ⟨side_chars false before _ front, .inr (.inl rfl), .inr (.inl rfl), side_chars true after _ back⟩
    · cases read

theorem read_readable (s : Text) (a : Ipv6) (read : read? s = some a) : ∀ c ∈ s, IsReadable c := fun c member =>
  address_char_readable c (read_chars s a read c member)

theorem parts_length (tail : Bool) (parts : List Text) (groups : List Nat) (read : parts? tail parts = some groups) :
    groups.length ≤ parts.length + 1 := by
  induction parts generalizing groups with
  | nil =>
      cases read
      exact Nat.zero_le _
  | cons part rest ih =>
      cases rest with
      | nil =>
          rw [parts?] at read
          split at read
          · cases read
            exact Nat.le_succ _
          · split at read
            · split at read
              · cases read
                exact Nat.le_refl _
              · cases read
            · cases read
      | cons next rest =>
          obtain ⟨g, -, later⟩ := Option.bind_eq_some_iff.mp read
          obtain ⟨others, found, rfl⟩ := Option.map_eq_some_iff.mp later
          exact Nat.succ_le_succ (ih others found)

theorem read_colons (s : Text) (a : Ipv6) (read : read? s = some a) : 2 ≤ s.count ':' := by
  unfold read? at read
  split at read
  · split at read
    · rename_i groups side
      split at read
      · rename_i eight
        unfold side? at side
        split at side
        · cases side
          cases eight
        · have parts := parts_length true _ groups side
          rw [Text.split_length] at parts
          omega
      · cases read
    · cases read
  · rename_i before after gap
    rw [gap_whole s before after gap, List.count_append, List.count_cons_self, List.count_cons_self]
    omega

end Ipv6

end Address

end Gateway
