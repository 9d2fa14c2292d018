import Gateway.Proofs.Gzip.Tag

set_option autoImplicit false

namespace Gateway.Gzip.Tag

def quoted (lead inside : Text) : Text := lead ++ '"' :: inside ++ ['"']

def IsLead (lead : Text) : Prop := lead = [] ∨ lead = "W/".toList

inductive IsTag : Text → Prop where
  | quoted (lead inside : Text) (known : IsLead lead) (plain : '"' ∉ inside) : IsTag (quoted lead inside)
  | bare (tag : Text) (plain : '"' ∉ tag) (single : ',' ∉ tag) (given : tag ≠ [])
      (trimmed : Text.trim tag = tag) : IsTag tag

def IsPiece (piece : Text) : Prop := Text.trim piece = [] ∨ IsTag (Text.trim piece)

def members (pieces : List Text) : List Text := pieces.map Text.trim

-- What a member of a list has to be for the form of a tag for compressed bodies to occur in it.
inductive Matches (tag : Text) : Text → Prop where
  | same : Matches tag (gzip tag)
  | weak (strong : tag.head? = some '"') : Matches tag ("W/".toList ++ gzip tag)
  | part (member : Text) (bare : '"' ∉ tag) (within : gzip tag <:+: member) : Matches tag member

theorem lead_plain (lead : Text) (known : IsLead lead) : '"' ∉ lead := by
  rcases known with rfl | rfl <;> decide

theorem lead_suffix (lead lead' : Text) (known : IsLead lead) (known' : IsLead lead') :
    lead <:+ lead' ↔ lead = lead' ∨ lead = [] ∧ lead' = "W/".toList := by
  rcases known with rfl | rfl <;> rcases known' with rfl | rfl <;> decide

theorem gzip_quoted (lead inside : Text) : gzip (quoted lead inside) = quoted lead (inside ++ mark) := by
  have ends : ['"'].isSuffixOf (quoted lead inside) = true := List.isSuffixOf_iff_suffix.mpr (List.suffix_append _ _)
  have short : (quoted lead inside).take ((quoted lead inside).length - ['"'].length) = lead ++ '"' :: inside := by
    rw [quoted, List.length_append, Nat.add_sub_cancel, List.take_left]
  rw [gzip, Text.withoutEnd, if_pos ends, short]
  simp [quoted]

theorem gzip_bare (tag : Text) (plain : '"' ∉ tag) : gzip tag = tag ++ mark := by
  have ends : ¬ ['"'].isSuffixOf tag = true := by
    rw [List.isSuffixOf_iff_suffix]
    exact fun within => plain (within.subset (List.mem_singleton_self _))
  rw [gzip, Text.withoutEnd, if_neg ends]

theorem blank_plain (s : Text) (blank : ∀ c ∈ s, Text.isBlank c = true) : '"' ∉ s := fun member => by
  cases blank '"' member

theorem cut_quoted (lead inside before after : Text) (plain : '"' ∉ lead) (plain' : '"' ∉ before) :
    Text.cut '"' (before ++ quoted lead inside ++ after) = some (before ++ lead, inside ++ '"' :: after) := by
  have clean : '"' ∉ before ++ lead := by
    rw [List.mem_append, not_or]
    exact ⟨plain', plain⟩
  have whole : before ++ quoted lead inside ++ after =
      (before ++ lead) ++ '"' :: (inside ++ '"' :: after) := by simp [quoted]
  rw [whole, Text.cut_append _ _ _ clean]

theorem infix_quoted (lead lead' inside inside' : Text) (plain : '"' ∉ lead) (plain' : '"' ∉ lead') (own : '"' ∉ inside)
    (own' : '"' ∉ inside') : quoted lead inside <:+: quoted lead' inside' ↔ lead <:+ lead' ∧ inside = inside' := by
  have quotes (lead inside : Text) (plain : '"' ∉ lead) (own : '"' ∉ inside) : (quoted lead inside).count '"' = 2 := by
    simp [quoted, List.count_append, List.count_eq_zero_of_not_mem plain, List.count_eq_zero_of_not_mem own]
  constructor
  · rintro ⟨before, after, whole⟩
    have clean : '"' ∉ before := by
      have counted := congrArg (List.count '"') whole
      rw [List.count_append, List.count_append, quotes lead inside plain own,
        quotes lead' inside' plain' own'] at counted
      exact List.count_eq_zero.mp (by omega)
    have cut := congrArg (Text.cut '"') whole
    have cut' := cut_quoted lead' inside' [] [] plain' List.not_mem_nil
    rw [List.nil_append, List.append_nil] at cut'
    rw [cut_quoted lead inside before after plain clean, cut', Option.some.injEq, Prod.mk.injEq] at cut
    have ends := congrArg (Text.cut '"') cut.2
    rw [Text.cut_append _ _ _ own, Text.cut_append _ _ _ own', Option.some.injEq, Prod.mk.injEq] at ends
    exact ⟨⟨before, cut.1⟩, ends.1⟩
  · rintro ⟨⟨before, rfl⟩, rfl⟩
    exact ⟨before, [], by simp [quoted]⟩

-- In a list no quote opens right behind the letter that the mark ends with.
theorem piece_opens (piece before after : Text) (legal : IsPiece piece)
    (cut : Text.cut '"' piece = some (before, after)) :
    before.getLast? ≠ some 'p' := by
  obtain ⟨front, back, whole, blank, blank'⟩ := Text.framed_trim piece
  have bare (plain : '"' ∉ Text.trim piece) : before.getLast? ≠ some 'p' := by
    have clean : '"' ∉ piece := by
      rw [whole, List.mem_append, List.mem_append, not_or, not_or]
      exact ⟨⟨blank_plain front blank, plain⟩, blank_plain back blank'⟩
    cases (Text.cut_clean '"' piece clean).symm.trans cut
  unfold IsPiece at legal
  generalize Text.trim piece = tag at legal whole bare
  rcases legal with rfl | tagged
  · exact bare List.not_mem_nil
  · cases tagged with
    | bare _ plain => exact bare plain
    | quoted lead inside known plain =>
        rw [whole, cut_quoted lead inside front back (lead_plain lead known) (blank_plain front blank),
          Option.some.injEq,
          Prod.mk.injEq] at cut
        rw [← cut.1, List.getLast?_append]
        rcases known with rfl | rfl
        · intro last
          cases blank 'p' (List.mem_of_getLast? last)
        · exact nofun

theorem list_opens (pieces : List Text) (legal : ∀ piece ∈ pieces, IsPiece piece) (before after : Text)
    (cut : Text.cut '"' (Text.join [','] pieces) = some (before, after)) : before.getLast? ≠ some 'p' := by
  induction pieces generalizing before with
  | nil => cases cut
  | cons piece rest ih =>
      rw [List.forall_mem_cons] at legal
      by_cases last : rest = []
      · subst last
        exact piece_opens piece before after legal.1 cut
      · rw [Text.join_cons _ _ _ last, List.append_assoc, List.singleton_append] at cut
        by_cases plain : '"' ∈ piece
        · obtain ⟨⟨front, back⟩, opens⟩ :=
            Option.ne_none_iff_exists'.mp (mt (Text.cut_none '"' piece) (not_not_intro plain))
          obtain ⟨whole, clean⟩ := Text.cut_some '"' piece front back opens
          rw [whole, List.append_assoc, List.cons_append, Text.cut_append _ _ _ clean,
            Option.some.injEq, Prod.mk.injEq] at cut
          rw [← cut.1]
          exact piece_opens piece front back legal.1 opens
        · rw [Text.cut_later _ _ _ plain, Text.cut, if_neg (by decide), Option.map_map] at cut
          obtain ⟨⟨front, back⟩, opens, same⟩ := Option.map_eq_some_iff.mp cut
          obtain ⟨rfl, rfl⟩ : piece ++ ',' :: front = before ∧ back = after := by simpa using same
          have later := ih legal.2 front opens
          rw [List.getLast?_append, List.getLast?_cons]
          cases ends : front.getLast? with
          | none => exact fun last => absurd (Option.some.inj last) (by decide)
          | some c => simpa [ends] using later

theorem quoted_tail (lead inside y : Text) (known : IsLead lead) (plain : '"' ∉ inside)
    (tail : ',' :: y <:+ quoted lead (inside ++ mark)) : ∃ v, y = v ++ ['p', '"'] ∧ '"' ∉ v := by
  have whole : quoted lead (inside ++ mark) = (lead ++ ['"']) ++ ((inside ++ "--gzi".toList) ++ ['p', '"']) := by
    simp [quoted, mark]
  have foreign : ',' ∉ lead ++ ['"'] := by
    rcases known with rfl | rfl <;> decide
  rw [whole] at tail
  obtain ⟨v, ends, inner⟩ := Text.suffix_ahead _ _ _ _ (by decide) (Text.suffix_behind _ _ _ _ foreign tail)
  refine ⟨v, ends, fun member => ?_⟩
  rcases List.mem_append.mp (inner.subset (List.mem_cons_of_mem _ member)) with within | marked
  · exact plain within
  · exact absurd marked (by decide)

-- The marked form of a quoted tag lies across no border of the pieces, since no quote opens behind it.
theorem quoted_within (lead inside : Text) (known : IsLead lead) (plain : '"' ∉ inside) (pieces : List Text)
    (legal : ∀ piece ∈ pieces, IsPiece piece) :
    quoted lead (inside ++ mark) <:+: Text.join [','] pieces ↔ ∃ piece ∈ pieces,
      quoted lead (inside ++ mark) <:+: piece := by
  apply Text.infix_join
  · simp [quoted]
  · intro rest later y tail leads
    obtain ⟨v, rfl, clean⟩ := quoted_tail lead inside y known plain tail
    obtain ⟨z, whole⟩ := leads
    have clean' : '"' ∉ v ++ ['p'] := by
      rw [List.mem_append, not_or]
      exact ⟨clean, by decide⟩
    have opens : Text.cut '"' (Text.join [','] rest) = some (v ++ ['p'], z) := by
      rw [← whole, show v ++ ['p', '"'] ++ z = (v ++ ['p']) ++ '"' :: z by simp, Text.cut_append _ _ _ clean']
    exact list_opens rest (fun piece member => legal piece (later.subset member)) _ _ opens List.getLast?_concat

theorem bare_within (tag : Text) (single : ',' ∉ tag) (pieces : List Text) :
    tag ++ mark <:+: Text.join [','] pieces ↔ ∃ piece ∈ pieces, tag ++ mark <:+: piece := by
  apply Text.infix_join
  · simp [mark]
  · intro rest later y tail leads
    rcases List.mem_append.mp (tail.subset List.mem_cons_self) with within | marked
    · exact single within
    · exact absurd marked (by decide)

theorem matches_within (tag member : Text) (found : Matches tag member) : gzip tag <:+: member := by
  cases found with
  | same => exact List.infix_rfl
  | weak => exact (List.suffix_append _ _).isInfix
  | part _ _ within => exact within

theorem quoted_matches (lead inside member : Text) (known : IsLead lead) (plain : '"' ∉ inside)
    (legal : member = [] ∨ IsTag member) (within : gzip (quoted lead inside) <:+: member) :
    Matches (quoted lead inside) member := by
  have marked : '"' ∉ inside ++ mark := by
    rw [List.mem_append, not_or]
    exact ⟨plain, by decide⟩
  rw [gzip_quoted] at within
  rcases legal with rfl | tagged
  · simp [quoted] at within
  · cases tagged with
    | bare _ clean => exact absurd (within.subset (by simp [quoted])) clean
    | quoted lead' inside' known' plain' =>
        obtain ⟨leads, rfl⟩ :=
          (infix_quoted lead lead' _ inside' (lead_plain lead known) (lead_plain lead' known') marked plain').mp within
        rcases (lead_suffix lead lead' known known').mp leads with rfl | ⟨rfl, rfl⟩
        · rw [← gzip_quoted]
          exact .same
        · have whole : quoted "W/".toList (inside ++ mark) = "W/".toList ++ gzip (quoted [] inside) := by
            rw [gzip_quoted]
            rfl
          rw [whole]
          exact .weak rfl

theorem occurs_matches (tag : Text) (tagged : IsTag tag) (pieces : List Text)
    (legal : ∀ piece ∈ pieces, IsPiece piece) :
    Text.occursIn (gzip tag) (Text.join [','] pieces) = true ↔ ∃ member ∈ members pieces, Matches tag member := by
  have listed : (∃ member ∈ members pieces, Matches tag member) ↔
      ∃ piece ∈ pieces, Matches tag (Text.trim piece) := by
    simp [members]
  rw [Text.occurs_iff, listed]
  cases tagged with
  | quoted lead inside known plain =>
      rw [gzip_quoted, quoted_within lead inside known plain pieces legal, ← gzip_quoted]
      refine exists_congr fun piece => and_congr_right fun member => ?_
      have trimmed : gzip (quoted lead inside) <:+: piece ↔ gzip (quoted lead inside) <:+: Text.trim piece := by
        rw [gzip_quoted]
        rcases known with rfl | rfl
        · exact Text.infix_trim _ piece '"' '"' _ _ rfl rfl (by decide) (by decide)
        · exact Text.infix_trim _ piece 'W' '"' _ _ rfl rfl (by decide) (by decide)
      rw [trimmed]
      exact ⟨quoted_matches lead inside _ known plain (legal piece member), matches_within _ _⟩
  | bare _ plain single given trimmed =>
      obtain ⟨c, rest, rfl⟩ := List.exists_cons_of_ne_nil given
      have marked := gzip_bare (c :: rest) plain
      rw [marked, bare_within (c :: rest) single pieces]
      refine exists_congr fun piece => and_congr_right fun _ => ?_
      rw [Text.infix_trim (c :: rest ++ mark) piece c 'p' _ (c :: rest ++ "--gzi".toList) rfl (by simp [mark])
        (Text.trim_head _ rest c trimmed) (by decide), ← marked]
      exact ⟨.part _ plain, matches_within _ _⟩

end Gateway.Gzip.Tag
