import Gateway.Proofs.Authority.Rendering

set_option autoImplicit false

namespace Gateway

namespace Numeral

theorem read_some (limit : Nat) (s : Text) (n : Nat) : read? limit s = some n ↔
    ∃ sign digits, s = sign ++ digits ∧ sign ∈ [[], ['+']] ∧ digits ≠ [] ∧ (∀ c ∈ digits, c.isDigit = true) ∧
      Nat.ofDigitChars 10 digits 0 = n ∧ n ≤ limit := by
  constructor
  · intro read
    have signed : ∃ sign, s = sign ++ unsigned s ∧ sign ∈ [[], ['+']] := by
      unfold unsigned
      split
      · exact ⟨['+'], rfl, by decide⟩
      · exact ⟨[], rfl, by decide⟩
    obtain ⟨sign, whole, allowed⟩ := signed
    unfold read? at read
    split at read
    · cases read
    · rename_i given
      obtain ⟨value, bounded⟩ := Option.filter_eq_some_iff.mp read
      have decimal := digits_only 0 _ n value
      rw [digits_value 0 _ decimal] at value
      exact ⟨sign, unsigned s, whole, allowed, given, decimal, Option.some.inj value, by simpa using bounded⟩
  · rintro ⟨sign, digits, rfl, allowed, given, decimal, rfl, bounded⟩
    have bare : unsigned (sign ++ digits) = digits := by
      rcases List.mem_pair.mp allowed with rfl | rfl
      · exact unsigned_digits digits decimal
      · rfl
    unfold read?
    rw [bare]
    split
    · exact absurd rfl given
    · rw [digits_value 0 digits decimal, Option.filter_some_pos (by simpa using bounded)]

end Numeral

namespace Authority

def IsNameChar (c : Char) : Prop := '!'.toNat ≤ c.toNat ∧ c.toNat ≤ '~'.toNat ∧ c ∉ ":/?#@[]\\\"".toList

structure IsName (s : Text) : Prop where
  given : s ≠ []
  legal : ∀ c ∈ s, IsNameChar c

def IsLiteral (s : Text) : Prop :=
  ∃ address, (Address.Ipv6.read? address).isSome = true ∧ s = ['['] ++ address ++ [']']

structure Denotes (digits : Text) (n : UInt16) : Prop where
  given : digits ≠ []
  decimal : ∀ c ∈ digits, c.isDigit = true
  value : Nat.ofDigitChars 10 digits 0 = n.toNat
  positive : 0 < n

def IsPort (sign text : Text) (n : UInt16) : Prop :=
  ∃ before digits after, text = before ++ (sign ++ digits) ++ after ∧ (∀ c ∈ before, Text.isBlank c = true) ∧
    (∀ c ∈ after, Text.isBlank c = true) ∧ Denotes digits n

-- What a text names, if a port may have one of these signs.
inductive Spells (signs : List Text) : Text → Authority → Prop where
  | host (host : Text) (legal : IsName host ∨ IsLiteral host) : Spells signs host ⟨host, none⟩
  | numbered (host sign port : Text) (n : UInt16) (legal : IsName host ∨ IsLiteral host) (allowed : sign ∈ signs)
      (number : IsPort sign port n) : Spells signs (host ++ ':' :: port) ⟨host, some n⟩
  | bare (address : Text) (known : (Address.Ipv6.read? address).isSome = true) :
      Spells signs address ⟨['['] ++ address ++ [']'], none⟩

theorem name_char_iff (c : Char) : IsNameChar c ↔ isHostChar c = true ∧ c ≠ ':' := by
  have marks : ":/?#@[]\\\"".toList = ':' :: "/?#@[]\\\"".toList := rfl
  simp only [IsNameChar, marks, List.mem_cons, not_or, isHostChar, Bool.and_eq_true, decide_eq_true_eq,
    Bool.not_eq_true', ← Bool.not_eq_true, List.contains_iff_mem]
  constructor
  · rintro ⟨low, high, other, plain⟩
    exact ⟨⟨⟨low, high⟩, plain⟩, other⟩
  · rintro ⟨⟨⟨low, high⟩, plain⟩, other⟩
    exact ⟨low, high, other, plain⟩

theorem name_iff (s : Text) : IsName s ↔ isHostName s = true ∧ ':' ∉ s := by
  constructor
  · rintro ⟨given, legal⟩
    have plain (c : Char) (member : c ∈ s) := (name_char_iff c).mp (legal c member)
    obtain ⟨c, member⟩ := List.exists_mem_of_ne_nil s given
    have present := Text.trim_present s c member (host_char_plain c (plain c member).1).1
    refine ⟨?_, fun colon => (plain ':' colon).2 rfl⟩
    rw [isHostName, present]
    exact List.all_eq_true.mpr fun c member => (plain c member).1
  · rintro ⟨host, plain⟩
    obtain ⟨given, legal⟩ := Bool.and_eq_true_iff.mp host
    refine ⟨?_, fun c member => (name_char_iff c).mpr ⟨List.all_eq_true.mp legal c member, ?_⟩⟩
    · rintro rfl
      cases given
    · rintro rfl
      exact plain member

theorem host_iff (host : Text) : IsHost host ↔ IsName host ∨ IsLiteral host := by
  constructor
  · intro legal
    cases legal with
    | name _ legal plain => exact .inl ((name_iff host).mpr ⟨legal, plain⟩)
    | address inside known => exact .inr ⟨inside, known, rfl⟩
  · rintro (name | ⟨address, known, rfl⟩)
    · obtain ⟨legal, plain⟩ := (name_iff host).mp name
      exact .name host legal plain
    · exact .address address known

theorem name_unbracketed (host : Text) (name : IsName host) : host.head? ≠ some '[' := by
  intro first
  have bracket := name.legal '[' (List.mem_of_mem_head? first)
  exact bracket.2.2 (by decide)

theorem read_port_iff (text : Text) (n : UInt16) :
    readPort text = .ok n ↔ ∃ sign ∈ [[], ['+']], IsPort sign text n := by
  constructor
  · intro read
    have positive := read_port_positive text n read
    obtain ⟨before, after, whole, blank, blank'⟩ := Text.framed_trim text
    unfold readPort at read
    split at read
    · cases read
    · split at read
      · rename_i m number
        obtain rfl := Except.ok.inj read
        obtain ⟨sign, digits, same, allowed, given, decimal, value, bounded⟩ := (Numeral.read_some _ _ _).mp number
        refine ⟨sign, allowed, before, digits, after, same ▸ whole, blank, blank', given, decimal, ?_, positive⟩
        rw [value, UInt16.toNat_ofNat_of_lt' (Nat.lt_succ_of_le bounded)]
      · cases read
  · rintro ⟨sign, allowed, before, digits, after, rfl, blank, blank', given, decimal, value, positive⟩
    have clean : ∀ c ∈ sign ++ digits, Text.isBlank c = false := by
      rw [List.forall_mem_append]
      refine ⟨?_, fun c member => Text.digit_present c (decimal c member)⟩
      rcases List.mem_pair.mp allowed with rfl | rfl
      · exact nofun
      · exact List.forall_mem_singleton.mpr rfl
    have trimmed : Text.trim (before ++ (sign ++ digits) ++ after) = sign ++ digits := by
      rw [Text.trim_framed _ _ _ blank blank', Text.trim_clean _ clean]
    have present : (sign ++ digits).isEmpty = false := by simp [given]
    have number : Numeral.read? 65535 (sign ++ digits) = some n.toNat :=
      (Numeral.read_some _ _ _).mpr
        ⟨sign, digits, rfl, allowed, given, decimal, value, Nat.le_of_lt_succ n.toNat_lt⟩
    obtain ⟨m, above⟩ := Nat.exists_eq_succ_of_ne_zero (Nat.ne_of_gt (UInt16.lt_iff_toNat_lt.mp positive))
    rw [readPort, trimmed, present, number, above]
    change Except.ok (UInt16.ofNat (m + 1)) = _
    rw [← Nat.succ_eq_add_one, ← above, UInt16.ofNat_toNat]

theorem read_bare (address : Text) (known : (Address.Ipv6.read? address).isSome = true) :
    read address = .ok ⟨['['] ++ address ++ [']'], none⟩ := by
  obtain ⟨value, found⟩ := Option.isSome_iff_exists.mp known
  have colons := Address.Ipv6.read_colons address value found
  have chars := Address.Ipv6.read_chars address value found
  have plain : readPlain address = .ok ⟨['['] ++ address ++ [']'], none⟩ := by
    unfold readPlain
    split
    · rename_i uncut
      rw [List.count_eq_zero_of_not_mem (Text.cut_none ':' address uncut)] at colons
      cases colons
    · rename_i host port cut
      obtain ⟨whole, clean⟩ := Text.cut_some ':' address host port cut
      have more : port.contains ':' = true := by
        rw [whole, List.count_append, List.count_cons_self, List.count_eq_zero_of_not_mem clean] at colons
        rw [List.contains_iff_mem]
        exact List.count_pos_iff.mp (by omega)
      rw [if_pos more, if_pos known]
  cases address with
  | nil => cases colons
  | cons c rest =>
      have colon : ':' ∈ c :: rest := List.count_pos_iff.mp (by omega)
      have first := chars c List.mem_cons_self
      unfold read
      rw [Text.trim_present _ ':' colon (by decide), if_neg Bool.false_ne_true]
      split
      · rename_i same
        rw [(List.cons.inj same).1] at first
        exact absurd first (by decide)
      · exact plain

theorem bracketed_spelled (value rest : Text) (a : Authority) (whole : value = '[' :: rest)
    (said : readBracketed value rest = .ok a) : Spells [[], ['+']] value a := by
  unfold readBracketed at said
  split at said
  · cases said
  · rename_i address tail cut
    split at said
    · rename_i known
      have literal : IsLiteral (['['] ++ address ++ [']']) := ⟨address, known, rfl⟩
      obtain ⟨port, read, rfl⟩ := (map_ok _ _ _).mp said
      have text : value = ['['] ++ address ++ [']'] ++ tail := by
        rw [whole, Text.cut_last_some ']' rest address tail cut]
        simp
      rw [text]
      unfold readBracketTail at read
      split at read
      · cases read
        rw [List.append_nil]
        exact .host _ (.inr literal)
      · obtain ⟨n, number, rfl⟩ := (map_ok _ _ _).mp read
        obtain ⟨sign, allowed, port⟩ := (read_port_iff _ n).mp number
        exact .numbered _ sign _ n (.inr literal) allowed port
      · cases read
    · cases said

theorem plain_spelled (value : Text) (a : Authority) (said : readPlain value = .ok a) : Spells [[], ['+']] value a := by
  unfold readPlain at said
  split at said
  · rename_i uncut
    split at said
    · rename_i legal
      cases said
      exact .host value (.inl ((name_iff value).mpr ⟨legal, Text.cut_none ':' value uncut⟩))
    · cases said
  · rename_i host port cut
    obtain ⟨whole, clean⟩ := Text.cut_some ':' value host port cut
    split at said
    · split at said
      · rename_i known
        cases said
        exact .bare value known
      · cases said
    · split at said
      · rename_i legal
        obtain ⟨n, number, rfl⟩ := (map_ok _ _ _).mp said
        obtain ⟨sign, allowed, number⟩ := (read_port_iff port n).mp number
        rw [whole]
        exact .numbered host sign port n (.inl ((name_iff host).mpr ⟨legal, clean⟩)) allowed number
      · cases said

theorem read_spelled (text : Text) (a : Authority) (said : read text = .ok a) : Spells [[], ['+']] text a := by
  unfold read at said
  split at said
  · cases said
  · split at said
    · exact bracketed_spelled _ _ a rfl said
    · exact plain_spelled _ a said

theorem spelled_read (text : Text) (a : Authority) (spelled : Spells [[], ['+']] text a) : read text = .ok a := by
  cases spelled with
  | host _ legal => exact read_render ⟨text, none⟩ ⟨(host_iff text).mpr legal, nofun⟩
  | numbered host sign port n legal allowed number =>
      have port := (read_port_iff port n).mpr ⟨sign, allowed, number⟩
      rcases legal with name | ⟨address, known, rfl⟩
      · obtain ⟨legal, plain⟩ := (name_iff host).mp name
        exact read_numbered host _ n legal plain port
      · have read := read_enclosed_numbered address _ n known port
        simpa using read
  | bare _ known => exact read_bare text known

theorem spells_mono (signs more : List Text) (allowed : signs ⊆ more) (text : Text) (a : Authority)
    (spelled : Spells signs text a) : Spells more text a := by
  cases spelled with
  | host _ legal => exact .host text legal
  | numbered host sign port n legal member number => exact .numbered host sign port n legal (allowed member) number
  | bare _ known => exact .bare text known

theorem port_chars (text : Text) (n : UInt16) (port : IsPort [] text n) :
    ∀ c ∈ text, Text.isBlank c = true ∨ c.isDigit = true := by
  obtain ⟨before, digits, after, rfl, blank, blank', denotes⟩ := port
  rw [List.forall_mem_append, List.forall_mem_append]
  exact ⟨⟨fun c member => .inl (blank c member), fun c member => .inr (denotes.decimal c member)⟩,
    fun c member => .inl (blank' c member)⟩

theorem reads_spelled (text : Text) (a : Authority) : read text = .ok a ↔ Spells [[], ['+']] text a :=
  ⟨read_spelled text a, spelled_read text a⟩

-- A sign is no part of a port, but it is read.
theorem signed_port_read :
    read "host:+80".toList = .ok ⟨"host".toList, some 80⟩ ∧ ¬ ∃ a, Spells [[]] "host:+80".toList a := by
  have said : read "host:+80".toList = .ok ⟨"host".toList, some 80⟩ := rfl
  refine ⟨said, ?_⟩
  rintro ⟨a, spelled⟩
  have same := spelled_read _ a (spells_mono [[]] _ (by simp) _ a spelled)
  rw [said] at same
  obtain rfl := Except.ok.inj same
  generalize whole : "host:+80".toList = text at spelled
  cases spelled with
  | numbered _ sign port _ _ allowed number =>
      obtain rfl := List.mem_singleton.mp allowed
      obtain rfl : "+80".toList = port := by simpa using whole
      have legal := port_chars _ _ number '+' (by decide)
      revert legal
      decide

theorem reads_normal (text : Text) (a : Authority) (said : read text = .ok a) :
    (a.isIpv6 = true ∧ IsLiteral a.host ∨ a.isIpv6 = false ∧ IsName a.host) ∧
    (∀ n, a.port = some n → 1 ≤ n.toNat ∧ n.toNat ≤ 65535) ∧
    ∀ port, port = a.port ∨ port ≠ some 0 →
      (∃ value, Header.Value.ofText? (render ⟨a.host, port⟩) = some value ∧
        value.text? = some (render ⟨a.host, port⟩)) ∧
      read (render ⟨a.host, port⟩) = .ok ⟨a.host, port⟩ := by
  have proper := read_proper text a said
  refine ⟨?_, fun n given => ⟨?_, Nat.le_of_lt_succ n.toNat_lt⟩, fun port other => ?_⟩
  · rcases (host_iff a.host).mp proper.host with name | literal
    · refine .inr ⟨?_, name⟩
      rw [isIpv6, decide_eq_false_iff_not]
      exact name_unbracketed a.host name
    · refine .inl ⟨?_, literal⟩
      obtain ⟨address, -, whole⟩ := literal
      rw [isIpv6, whole]
      rfl
  · exact UInt16.lt_iff_toNat_lt.mp (proper.port n given)
  · have positive (n : UInt16) (given : port = some n) : 0 < n := by
      rcases other with rfl | other
      · exact proper.port n given
      · refine UInt16.pos_iff_ne_zero.mpr ?_
        rintro rfl
        exact other given
    have changed : IsProper ⟨a.host, port⟩ := ⟨proper.host, positive⟩
    exact ⟨render_value _ changed, read_render _ changed⟩

theorem reads_normal_lent : read "2001:db8::17".toList = .ok ⟨"[2001:db8::17]".toList, none⟩ ∧
    IsLiteral "[2001:db8::17]".toList ∧
    read "[2001:db8::17]:8443".toList = .ok ⟨"[2001:db8::17]".toList, some 8443⟩ := by
  have said : read "2001:db8::17".toList = .ok ⟨"[2001:db8::17]".toList, none⟩ := rfl
  obtain ⟨kind, -, again⟩ := reads_normal _ _ said
  refine ⟨said, ?_, (again (some 8443) (.inr (by decide))).2⟩
  rcases kind with ⟨-, literal⟩ | ⟨other, -⟩
  · exact literal
  · cases other

end Authority

end Gateway
