import Gateway.Authority
import Gateway.Proofs.Address

set_option autoImplicit false

namespace Gateway

section Outcome

variable {ε α β : Type} (x : Except ε α) (b : β)

theorem map_ok (f : α → β) : x.map f = .ok b ↔ ∃ a, x = .ok a ∧ f a = b := by
  cases x <;> simp [Except.map]

theorem bind_ok (f : α → Except ε β) : x >>= f = .ok b ↔ ∃ a, x = .ok a ∧ f a = .ok b := by
  cases x <;> simp [bind, Except.bind]

end Outcome

namespace Authority

theorem read_port_positive (text : Text) (n : UInt16) (read : readPort text = .ok n) : 0 < n := by
  unfold readPort at read
  split at read
  · cases read
  · split at read
    · rename_i m found
      obtain rfl := Except.ok.inj read
      have bounded : m + 1 ≤ 65535 := by
        unfold Numeral.read? at found
        split at found
        · cases found
        · simpa using (Option.filter_eq_some_iff.mp found).2
      rw [UInt16.lt_iff_toNat_lt, UInt16.toNat_ofNat_of_lt' (Nat.lt_succ_of_le bounded)]
      exact Nat.succ_pos m
    · cases read

theorem read_tail_positive (value tail : Text) (n : UInt16)
    (read : readBracketTail value tail = .ok (some n)) : 0 < n := by
  unfold readBracketTail at read
  split at read
  · cases read
  · rw [map_ok] at read
    obtain ⟨m, number, same⟩ := read
    obtain rfl := Option.some.inj same
    exact read_port_positive _ m number
  · cases read

theorem read_bracketed_positive (value rest : Text) (a : Authority) (n : UInt16)
    (read : readBracketed value rest = .ok a)
    (port : a.port = some n) : 0 < n := by
  unfold readBracketed at read
  split at read
  · cases read
  · split at read
    · rw [map_ok] at read
      obtain ⟨_, tail, rfl⟩ := read
      obtain rfl := port
      exact read_tail_positive value _ n tail
    · cases read

theorem read_plain_positive (value : Text) (a : Authority) (n : UInt16) (read : readPlain value = .ok a)
    (port : a.port = some n) : 0 < n := by
  unfold readPlain at read
  split at read
  · split at read
    · obtain rfl := Except.ok.inj read
      cases port
    · cases read
  · split at read
    · split at read
      · obtain rfl := Except.ok.inj read
        cases port
      · cases read
    · split at read
      · rw [map_ok] at read
        obtain ⟨m, number, rfl⟩ := read
        obtain rfl := Option.some.inj port
        exact read_port_positive _ m number
      · cases read

theorem read_positive (text : Text) (a : Authority) (n : UInt16) (said : read text = .ok a) (port : a.port = some n) :
    0 < n := by
  unfold read at said
  split at said
  · cases said
  · split at said
    · exact read_bracketed_positive _ _ a n said port
    · exact read_plain_positive _ a n said port

theorem host_name_readable (s : Text) (name : isHostName s = true) : ∀ c ∈ s, Header.Value.IsReadable c := by
  intro c member
  have plain := List.all_eq_true.mp (Bool.and_eq_true_iff.mp name).2 c member
  simp only [isHostChar, Bool.and_eq_true, decide_eq_true_eq] at plain
  exact .inr ⟨Nat.le_trans (by decide) plain.1.1, Nat.lt_succ_of_le plain.1.2⟩

theorem bracketed_readable (s : Text) (address : Address.Ipv6) (read : Address.Ipv6.read? s = some address) :
    ∀ c ∈ ['['] ++ s ++ [']'], Header.Value.IsReadable c := by
  rw [List.forall_mem_append, List.forall_mem_append, List.forall_mem_singleton, List.forall_mem_singleton]
  exact ⟨⟨by decide, Address.Ipv6.read_readable s address read⟩, by decide⟩

theorem read_bracketed_readable (value rest : Text) (a : Authority) (read : readBracketed value rest = .ok a) :
    ∀ c ∈ a.host, Header.Value.IsReadable c := by
  unfold readBracketed at read
  split at read
  · cases read
  · split at read
    · rename_i whole
      obtain ⟨address, known⟩ := Option.isSome_iff_exists.mp whole
      obtain ⟨_, -, rfl⟩ := (map_ok _ _ _).mp read
      exact bracketed_readable _ address known
    · cases read

theorem read_plain_readable (value : Text) (a : Authority) (read : readPlain value = .ok a) :
    ∀ c ∈ a.host, Header.Value.IsReadable c := by
  unfold readPlain at read
  split at read
  · split at read
    · rename_i name
      obtain rfl := Except.ok.inj read
      exact host_name_readable value name
    · cases read
  · split at read
    · split at read
      · rename_i whole
        obtain ⟨address, known⟩ := Option.isSome_iff_exists.mp whole
        obtain rfl := Except.ok.inj read
        exact bracketed_readable value address known
      · cases read
    · split at read
      · rename_i name
        obtain ⟨_, -, rfl⟩ := (map_ok _ _ _).mp read
        exact host_name_readable _ name
      · cases read

theorem read_readable (text : Text) (a : Authority) (said : read text = .ok a) :
    ∀ c ∈ a.host, Header.Value.IsReadable c := by
  unfold read at said
  split at said
  · cases said
  · split at said
    · exact read_bracketed_readable _ _ a said
    · exact read_plain_readable _ a said

theorem read_legal (text : Text) (a : Authority) (said : read text = .ok a) :
    (Header.Value.ofText? a.host).isSome = true := by
  obtain ⟨value, written, -⟩ := Header.Value.of_text_readable a.host (read_readable text a said)
  exact Option.isSome_of_eq_some written

theorem decimal_readable (n : Nat) : ∀ c ∈ Text.decimal n, Header.Value.IsReadable c := by
  intro c member
  exact Address.digit_readable c (Nat.isDigit_of_mem_toDigits (by decide) (by decide) member)

-- A port is written in digits, so that the host decides whether an authority can stand in a header.
theorem render_legal (host : Text) (port : Option UInt16) :
    (Header.Value.ofText? (render ⟨host, port⟩)).isSome = (Header.Value.ofText? host).isSome := by
  cases port with
  | none => rfl
  | some n =>
      have readable : ∀ c ∈ ':' :: Text.decimal n.toNat, Header.Value.IsReadable c :=
        List.forall_mem_cons.mpr ⟨by decide, decimal_readable n.toNat⟩
      have legal := Header.Value.readable_legal _ readable
      have whole : render ⟨host, some n⟩ = host ++ ':' :: Text.decimal n.toNat := List.append_assoc _ _ _
      rw [Header.Value.of_text_some, Header.Value.of_text_some, whole, Text.utf8, List.flatMap_append, List.all_append]
      exact (congrArg (_ && ·) legal).trans (Bool.and_true _)

end Authority

end Gateway
