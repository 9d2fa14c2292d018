import Gateway.Proofs.Authority

set_option autoImplicit false

namespace Gateway

namespace Numeral

theorem digits_only (value : Nat) (s : Text) (n : Nat) (read : digits? value s = some n) :
    ∀ c ∈ s, c.isDigit = true := by
  induction s generalizing value with
  | nil => exact nofun
  | cons c rest ih =>
      obtain ⟨d, first, later⟩ := Option.bind_eq_some_iff.mp read
      refine List.forall_mem_cons.mpr ⟨?_, ih _ later⟩
      by_contra other
      rw [digit?, if_neg other] at first
      cases first

theorem read_signed (limit : Nat) (s : Text) (n : Nat) (read : read? limit s = some n) :
    ∀ c ∈ s, c = '+' ∨ c.isDigit = true := by
  have digits : ∀ c ∈ unsigned s, c.isDigit = true := by
    unfold read? at read
    split at read
    · cases read
    · exact digits_only 0 _ n (Option.filter_eq_some_iff.mp read).1
  unfold unsigned at digits
  split at digits
  · exact List.forall_mem_cons.mpr ⟨.inl rfl, fun c member => .inr (digits c member)⟩
  · exact fun c member => .inr (digits c member)

theorem digit_value (c : Char) (digit : c.isDigit = true) : digit? c = some (c.toNat - '0'.toNat) := if_pos digit

theorem digits_value (value : Nat) (s : Text) (digits : ∀ c ∈ s, c.isDigit = true) :
    digits? value s = some (Nat.ofDigitChars 10 s value) := by
  induction s generalizing value with
  | nil => rfl
  | cons c rest ih =>
      rw [List.forall_mem_cons] at digits
      rw [digits?, digit_value c digits.1, Option.bind_some, ih _ digits.2, Nat.ofDigitChars_cons, Nat.mul_comm]

theorem unsigned_digits (s : Text) (digits : ∀ c ∈ s, c.isDigit = true) : unsigned s = s := by
  cases s with
  | nil => rfl
  | cons c rest =>
      have signless : c ≠ '+' := by
        rintro rfl
        exact absurd (digits '+' List.mem_cons_self) (by decide)
      unfold unsigned
      split
      · rename_i same
        exact absurd (List.cons.inj same).1 signless
      · rfl

theorem decimal_digits (n : Nat) : ∀ c ∈ Text.decimal n, c.isDigit = true := fun _ member =>
  Nat.isDigit_of_mem_toDigits (by decide) (by decide) member

theorem read_decimal (limit n : Nat) (bounded : n ≤ limit) : read? limit (Text.decimal n) = some n := by
  have value : digits? 0 (Text.decimal n) = some n := by
    rw [digits_value 0 _ (decimal_digits n), Text.decimal, Nat.ofDigitChars_toDigits (by decide) (by decide)]
  unfold read?
  rw [unsigned_digits _ (decimal_digits n)]
  split
  · rename_i empty
    exact absurd empty Nat.toDigits_ne_nil
  · rw [value, Option.filter_some_pos (by simpa using bounded)]

end Numeral

namespace Authority

inductive IsHost : Text → Prop where
  | name (host : Text) (legal : isHostName host = true) (plain : ':' ∉ host) : IsHost host
  | address (inside : Text) (known : (Address.Ipv6.read? inside).isSome = true) : IsHost (['['] ++ inside ++ [']'])

structure IsProper (a : Authority) : Prop where
  host : IsHost a.host
  port : ∀ n, a.port = some n → 0 < n

theorem read_port_decimal (n : UInt16) (positive : 0 < n) : readPort (Text.decimal n.toNat) = .ok n := by
  have trimmed : Text.trim (Text.decimal n.toNat) = Text.decimal n.toNat :=
    Text.trim_clean _ fun c member => Text.digit_present c (Numeral.decimal_digits _ c member)
  have given : (Text.decimal n.toNat).isEmpty = false := by
    rw [← Bool.not_eq_true, List.isEmpty_iff]
    exact Nat.toDigits_ne_nil
  have value : Numeral.read? 65535 (Text.decimal n.toNat) = some n.toNat :=
    Numeral.read_decimal 65535 n.toNat (Nat.le_of_lt_succ n.toNat_lt)
  obtain ⟨m, number⟩ := Nat.exists_eq_succ_of_ne_zero (Nat.ne_of_gt (UInt16.lt_iff_toNat_lt.mp positive))
  rw [readPort, trimmed, given, value, number]
  change Except.ok (UInt16.ofNat (m + 1)) = _
  rw [← Nat.succ_eq_add_one, ← number, UInt16.ofNat_toNat]

theorem read_port_without (port : Text) (n : UInt16) (c : Char) (read : readPort port = .ok n)
    (present : Text.isBlank c = false) (strange : ¬ (c = '+' ∨ c.isDigit = true)) : c ∉ port := by
  have plain : c ∉ Text.trim port := by
    unfold readPort at read
    split at read
    · cases read
    · split at read
      · rename_i m number
        exact fun member => strange (Numeral.read_signed 65535 _ (m + 1) number c member)
      · cases read
  have foreign (d : Char) (blank : Text.isBlank d = true) : c ≠ d := by
    rintro rfl
    rw [present] at blank
    cases blank
  obtain ⟨before, after, whole, blank, blank'⟩ := Text.framed_trim port
  rw [whole, List.mem_append, List.mem_append]
  rintro ((member | member) | member)
  · exact foreign c (blank c member) rfl
  · exact plain member
  · exact foreign c (blank' c member) rfl

theorem read_port_plain (port : Text) (n : UInt16) (read : readPort port = .ok n) : ':' ∉ port :=
  read_port_without port n ':' read (by decide) (by decide)

theorem read_bracketed_host (value rest : Text) (a : Authority)
    (read : readBracketed value rest = .ok a) : IsHost a.host := by
  unfold readBracketed at read
  split at read
  · cases read
  · split at read
    · rename_i known
      obtain ⟨_, -, rfl⟩ := (map_ok _ _ _).mp read
      exact .address _ known
    · cases read

theorem read_plain_host (value : Text) (a : Authority) (read : readPlain value = .ok a) : IsHost a.host := by
  unfold readPlain at read
  split at read
  · rename_i uncut
    split at read
    · rename_i name
      obtain rfl := Except.ok.inj read
      exact .name value name (Text.cut_none ':' value uncut)
    · cases read
  · rename_i host port cut
    split at read
    · split at read
      · rename_i known
        obtain rfl := Except.ok.inj read
        exact .address value known
      · cases read
    · split at read
      · rename_i name
        obtain ⟨_, -, rfl⟩ := (map_ok _ _ _).mp read
        exact .name host name (Text.cut_some ':' value host port cut).2
      · cases read

theorem read_host (text : Text) (a : Authority) (said : read text = .ok a) : IsHost a.host := by
  unfold read at said
  split at said
  · cases said
  · split at said
    · exact read_bracketed_host _ _ a said
    · exact read_plain_host _ a said

theorem read_proper (text : Text) (a : Authority) (said : read text = .ok a) : a.IsProper :=
  ⟨read_host text a said, fun n => read_positive text a n said⟩

theorem read_plain_text (c : Char) (rest : Text) (present : Text.isBlank c = false) (plain : c ≠ '[') :
    read (c :: rest) = readPlain (c :: rest) := by
  unfold read
  rw [Text.trim_present (c :: rest) c List.mem_cons_self present, if_neg Bool.false_ne_true]
  split
  · rename_i same
    exact absurd (List.cons.inj same).1 plain
  · rfl

theorem host_char_plain (c : Char) (legal : isHostChar c = true) : Text.isBlank c = false ∧ c ≠ '[' := by
  constructor
  · simp only [isHostChar, Bool.and_eq_true, decide_eq_true_eq] at legal
    have low : 33 ≤ c.toNat := legal.1.1
    have high : c.toNat ≤ 126 := legal.1.2
    unfold Text.isBlank
    simp only [Bool.or_eq_false_iff, Bool.and_eq_false_iff, beq_eq_false_iff_ne, decide_eq_false_iff_not]
    omega
  · rintro rfl
    exact absurd legal (by decide)

theorem read_host_text (host value : Text) (legal : isHostName host = true) :
    read (host ++ value) = readPlain (host ++ value) := by
  cases host with
  | nil => cases legal
  | cons c rest =>
      have first := List.all_eq_true.mp (Bool.and_eq_true_iff.mp legal).2 c List.mem_cons_self
      obtain ⟨present, other⟩ := host_char_plain c first
      exact read_plain_text c (rest ++ value) present other

theorem read_numbered (host port : Text) (n : UInt16) (legal : isHostName host = true) (plain : ':' ∉ host)
    (number : readPort port = .ok n) : read (host ++ ':' :: port) = .ok ⟨host, some n⟩ := by
  have single : ¬ port.contains ':' = true := by
    rw [List.contains_iff_mem]
    exact read_port_plain port n number
  rw [read_host_text host _ legal, readPlain, Text.cut_append ':' host port plain]
  dsimp only
  rw [if_neg single, if_pos legal, number]
  rfl

theorem read_name (host : Text) (port : Option UInt16) (legal : isHostName host = true) (plain : ':' ∉ host)
    (positive : ∀ n, port = some n → 0 < n) : read (render ⟨host, port⟩) = .ok ⟨host, port⟩ := by
  cases port with
  | none =>
      have alone := read_host_text host [] legal
      rw [List.append_nil] at alone
      change read host = _
      rw [alone, readPlain, Text.cut_clean ':' host plain]
      exact if_pos legal
  | some n =>
      have whole : render ⟨host, some n⟩ = host ++ ':' :: Text.decimal n.toNat := List.append_assoc _ _ _
      rw [whole]
      exact read_numbered host _ n legal plain (read_port_decimal n (positive n rfl))

theorem read_enclosed (inside tail : Text) (known : (Address.Ipv6.read? inside).isSome = true) (clean : ']' ∉ tail) :
    read ('[' :: (inside ++ ']' :: tail)) =
      (readBracketTail ('[' :: (inside ++ ']' :: tail)) tail).map fun port => ⟨['['] ++ inside ++ [']'], port⟩ := by
  rw [read, Text.trim_present _ '[' List.mem_cons_self (by decide)]
  change readBracketed _ _ = _
  rw [readBracketed, Text.cut_last_append ']' inside tail clean]
  exact if_pos known

theorem read_enclosed_numbered (inside port : Text) (n : UInt16) (known : (Address.Ipv6.read? inside).isSome = true)
    (number : readPort port = .ok n) :
    read ('[' :: (inside ++ ']' :: ':' :: port)) = .ok ⟨['['] ++ inside ++ [']'], some n⟩ := by
  have clean : ']' ∉ ':' :: port := by
    rw [List.mem_cons, not_or]
    exact ⟨by decide, read_port_without port n ']' number (by decide) (by decide)⟩
  rw [read_enclosed inside _ known clean, readBracketTail, number]
  rfl

theorem read_address (inside : Text) (port : Option UInt16) (known : (Address.Ipv6.read? inside).isSome = true)
    (positive : ∀ n, port = some n → 0 < n) :
    read (render ⟨['['] ++ inside ++ [']'], port⟩) = .ok ⟨['['] ++ inside ++ [']'], port⟩ := by
  cases port with
  | none =>
      have whole : render ⟨['['] ++ inside ++ [']'], none⟩ = '[' :: (inside ++ ']' :: []) := rfl
      rw [whole, read_enclosed inside [] known List.not_mem_nil]
      rfl
  | some n =>
      have whole : render ⟨['['] ++ inside ++ [']'], some n⟩ =
          '[' :: (inside ++ ']' :: ':' :: Text.decimal n.toNat) := by
        simp [render]
      rw [whole]
      exact read_enclosed_numbered inside _ n known (read_port_decimal n (positive n rfl))

-- Neither a port nor a bracket can be mistaken for a part of another host.
theorem read_render (a : Authority) (proper : a.IsProper) : read a.render = .ok a := by
  obtain ⟨host, port⟩ := a
  obtain ⟨legal, positive⟩ := proper
  cases legal with
  | name _ legal plain => exact read_name host port legal plain positive
  | address inside known => exact read_address inside port known positive

theorem host_readable (host : Text) (legal : IsHost host) : ∀ c ∈ host, Header.Value.IsReadable c := by
  cases legal with
  | name _ legal _ => exact host_name_readable host legal
  | address inside known =>
      obtain ⟨address, read⟩ := Option.isSome_iff_exists.mp known
      exact bracketed_readable inside address read

theorem render_value (a : Authority) (proper : a.IsProper) :
    ∃ value, Header.Value.ofText? a.render = some value ∧ value.text? = some a.render := by
  obtain ⟨host, port⟩ := a
  have readable := host_readable host proper.host
  apply Header.Value.of_text_readable
  cases port with
  | none => exact readable
  | some n =>
      rw [render, List.forall_mem_append, List.forall_mem_append, List.forall_mem_singleton]
      exact ⟨⟨readable, by decide⟩, decimal_readable n.toNat⟩

end Authority

end Gateway
