import Mathlib.Data.List.DropRight
import Mathlib.Data.List.Infix
import Gateway.Text

set_option autoImplicit false

namespace Gateway.Text

theorem split_clean (separator : Char) (part : Text) (clean : separator ∉ part) : split separator part = [part] := by
  induction part with
  | nil => rfl
  | cons c rest ih =>
      rw [List.mem_cons, not_or] at clean
      rw [split, if_neg (Ne.symm clean.1), ih clean.2]

theorem split_append (separator : Char) (part rest : Text) (clean : separator ∉ part) :
    split separator (part ++ separator :: rest) = part :: split separator rest := by
  induction part with
  | nil => simp [split]
  | cons c part ih =>
      rw [List.mem_cons, not_or] at clean
      rw [List.cons_append, split, if_neg (Ne.symm clean.1), ih clean.2]

theorem split_some (separator : Char) (s : Text) : ∃ part parts, split separator s = part :: parts := by
  cases s with
  | nil => exact ⟨[], [], rfl⟩
  | cons c rest =>
      unfold split
      split
      · exact ⟨_, _, rfl⟩
      · split <;> exact ⟨_, _, rfl⟩

theorem split_cons (separator c : Char) (rest : Text) (other : c ≠ separator) :
    ∃ part parts, split separator rest = part :: parts ∧ split separator (c :: rest) = (c :: part) :: parts := by
  obtain ⟨part, parts, whole⟩ := split_some separator rest
  refine ⟨part, parts, whole, ?_⟩
  rw [split, if_neg other, whole]

theorem split_induction (separator : Char) {motive : Text → Prop}
    (alone : ∀ part, separator ∉ part → motive part)
    (more : ∀ part rest, separator ∉ part → motive rest → motive (part ++ separator :: rest))
    (s : Text) : motive s := by
  have ahead : ∀ part, separator ∉ part → motive (part ++ s) := by
    induction s with
    | nil =>
        intro part clean
        rw [List.append_nil]
        exact alone part clean
    | cons c rest ih =>
        intro part clean
        by_cases same : c = separator
        · rw [same]
          exact more part rest clean (ih [] List.not_mem_nil)
        · rw [List.append_cons]
          apply ih
          rw [List.mem_append, List.mem_singleton, not_or]
          exact ⟨clean, Ne.symm same⟩
  exact ahead [] List.not_mem_nil

theorem split_length (separator : Char) (s : Text) : (split separator s).length = s.count separator + 1 := by
  induction s using split_induction separator with
  | alone part clean =>
      rw [split_clean separator part clean, List.count_eq_zero_of_not_mem clean, List.length_singleton]
  | more part rest clean ih =>
      rw [split_append separator part rest clean, List.length_cons, ih, List.count_append, List.count_cons_self,
        List.count_eq_zero_of_not_mem clean, Nat.zero_add]

theorem occurs_iff (needle s : Text) : occursIn needle s = true ↔ needle <:+: s := by
  induction s with
  | nil => rw [occursIn, List.isEmpty_iff, List.infix_nil]
  | cons c rest ih => rw [occursIn, Bool.or_eq_true, ih, List.isPrefixOf_iff_prefix, List.infix_cons_iff]

theorem mem_split (separator : Char) (s part : Text) (member : part ∈ split separator s) :
    separator ∉ part ∧ ∀ c ∈ part, c ∈ s := by
  induction s generalizing part with
  | nil =>
      obtain rfl : part = [] := by simpa [split] using member
      exact ⟨List.not_mem_nil, nofun⟩
  | cons c rest ih =>
      by_cases same : c = separator
      · rw [split, if_pos same] at member
        rcases List.mem_cons.mp member with rfl | later
        · exact ⟨List.not_mem_nil, nofun⟩
        · obtain ⟨clean, within⟩ := ih part later
          exact ⟨clean, fun d here => List.mem_cons_of_mem _ (within d here)⟩
      · obtain ⟨first, parts, whole, grown⟩ := split_cons separator c rest same
        rw [grown] at member
        rcases List.mem_cons.mp member with rfl | later
        · obtain ⟨clean, within⟩ := ih first (by simp [whole])
          refine ⟨?_, ?_⟩
          · rw [List.mem_cons, not_or]
            exact ⟨Ne.symm same, clean⟩
          · intro d here
            rcases List.mem_cons.mp here with rfl | inside
            · exact List.mem_cons_self
            · exact List.mem_cons_of_mem _ (within d inside)
        · obtain ⟨clean, within⟩ := ih part (by simp [whole, later])
          exact ⟨clean, fun d here => List.mem_cons_of_mem _ (within d here)⟩

theorem split_within (separator : Char) (s : Text) (legal : Char → Prop) (own : legal separator)
    (within : ∀ part ∈ split separator s, ∀ c ∈ part, legal c) : ∀ c ∈ s, legal c := by
  induction s with
  | nil => exact nofun
  | cons c rest ih =>
      by_cases same : c = separator
      · subst same
        rw [split, if_pos rfl, List.forall_mem_cons] at within
        exact List.forall_mem_cons.mpr ⟨own, ih within.2⟩
      · obtain ⟨part, parts, whole, grown⟩ := split_cons separator c rest same
        rw [grown, List.forall_mem_cons, List.forall_mem_cons] at within
        refine List.forall_mem_cons.mpr ⟨within.1.1, ih ?_⟩
        rw [whole, List.forall_mem_cons]
        exact ⟨within.1.2, within.2⟩

theorem trim_blank (c : Char) (s : Text) (blank : isBlank c = true) : trim (c :: s) = trim s := by
  rw [trim, trimStart, List.dropWhile_cons_of_pos blank]
  rfl

theorem mem_trim (c : Char) (s : Text) (member : c ∈ trim s) : c ∈ s := by
  have kept : c ∈ trimStart s := (List.rdropWhile_prefix isBlank _).subset member
  exact (List.dropWhile_sublist isBlank).subset kept

theorem trim_framed (before s after : Text) (blank : ∀ c ∈ before, isBlank c = true)
    (blank' : ∀ c ∈ after, isBlank c = true) : trim (before ++ s ++ after) = trim s := by
  have ends (x : Text) : trimEnd (x ++ after) = trimEnd x := by
    rw [trimEnd, trimEnd, List.reverse_append, List.dropWhile_append_of_pos]
    exact fun c member => blank' c (List.mem_reverse.mp member)
  have start : trimStart (before ++ s ++ after) = trimStart (s ++ after) := by
    rw [List.append_assoc, trimStart, List.dropWhile_append_of_pos blank]
    rfl
  rw [trim, start, trim, trimStart, List.dropWhile_append]
  by_cases empty : (s.dropWhile isBlank).isEmpty = true
  · have gone : after.dropWhile isBlank = [] := List.dropWhile_eq_nil_iff.mpr blank'
    rw [if_pos empty, gone, trimStart, List.isEmpty_iff.mp empty]
  · rw [if_neg empty, ends]
    rfl

theorem framed_trim (s : Text) : ∃ before after, s = before ++ trim s ++ after ∧
    (∀ c ∈ before, isBlank c = true) ∧ ∀ c ∈ after, isBlank c = true := by
  refine ⟨s.takeWhile isBlank, (trimStart s).rtakeWhile isBlank, ?_, fun _ => List.mem_takeWhile_imp,
    fun _ => List.mem_rtakeWhile_imp⟩
  have back : trim s ++ (trimStart s).rtakeWhile isBlank = trimStart s := List.rdropWhile_append_rtakeWhile
  rw [List.append_assoc, back]
  exact (List.takeWhile_append_dropWhile).symm

theorem trimStart_trim (s : Text) : trimStart (trim s) = trim s := by
  rw [trimStart, List.dropWhile_eq_self_iff]
  intro nonempty blank
  have leads : trim s <+: trimStart s := List.rdropWhile_prefix isBlank _
  have long : 0 < (trimStart s).length := Nat.lt_of_lt_of_le nonempty leads.length_le
  rw [leads.getElem nonempty] at blank
  exact (List.dropWhile_eq_self_iff.mp (List.dropWhile_idempotent isBlank s) long) blank

theorem trim_trim (s : Text) : trim (trim s) = trim s := by
  rw [trim, trimStart_trim]
  exact List.rdropWhile_idempotent isBlank _

theorem trim_nil (s : Text) (empty : trim s = []) : ∀ c ∈ s, isBlank c = true := by
  obtain ⟨before, after, whole, blank, blank'⟩ := framed_trim s
  rw [empty, List.append_nil] at whole
  rw [whole, List.forall_mem_append]
  exact ⟨blank, blank'⟩

theorem trim_present (s : Text) (c : Char) (member : c ∈ s) (present : isBlank c = false) :
    (trim s).isEmpty = false := by
  rw [← Bool.not_eq_true, List.isEmpty_iff]
  intro empty
  rw [trim_nil s empty c member] at present
  cases present

theorem trim_clean (s : Text) (clean : ∀ c ∈ s, isBlank c = false) : trim s = s := by
  have kept (l : Text) (clean : ∀ c ∈ l, isBlank c = false) : l.dropWhile isBlank = l := by
    rw [List.dropWhile_eq_self_iff]
    intro nonempty blank
    rw [clean _ (List.getElem_mem nonempty)] at blank
    cases blank
  rw [trim, trimEnd, trimStart, kept s clean, kept s.reverse fun c member => clean c (List.mem_reverse.mp member),
    List.reverse_reverse]

theorem trim_firm (s rest front : Text) (c d : Char) (starts : s = c :: rest) (ends : s = front ++ [d])
    (present : isBlank c = false) (present' : isBlank d = false) : trim s = s := by
  have start : trimStart s = s := by rw [starts, trimStart, List.dropWhile_cons_of_neg (by simp [present])]
  rw [trim, start, ends, trimEnd, List.reverse_append, List.reverse_singleton, List.singleton_append,
    List.dropWhile_cons_of_neg (by simp [present']), List.reverse_cons, List.reverse_reverse]

def IsFirm (s : Text) : Prop := ∀ c ∈ s.getLast?, isBlank c = false

theorem firm_clean (s : Text) (clean : ∀ c ∈ s, isBlank c = false) : IsFirm s :=
  fun c last => clean c (List.mem_of_getLast? last)

theorem firm_behind (front s : Text) (c : Char) (present : isBlank c = false) (firm : IsFirm s) :
    IsFirm (front ++ c :: s) := by
  intro d last
  rw [List.getLast?_append, List.getLast?_cons, Option.some_or, Option.mem_some_iff] at last
  cases ends : s.getLast? with
  | none =>
      obtain rfl : c = d := by simpa [ends] using last
      exact present
  | some e =>
      obtain rfl : e = d := by simpa [ends] using last
      exact firm e ends

theorem trim_settled (s rest : Text) (c : Char) (starts : s = c :: rest) (present : isBlank c = false)
    (firm : IsFirm s) :
    trim s = s := by
  have ends : s = s.dropLast ++ [(c :: rest).getLast (List.cons_ne_nil c rest)] := by
    subst starts
    exact (List.dropLast_append_getLast (List.cons_ne_nil c rest)).symm
  refine trim_firm s rest _ c _ starts ends present (firm _ ?_)
  rw [starts]
  exact List.getLast?_eq_getLast_of_ne_nil _

theorem digit_present (c : Char) (digit : c.isDigit = true) : Text.isBlank c = false := by
  rw [Char.isDigit_iff_toNat] at digit
  have low : 48 ≤ c.toNat := digit.1
  have high : c.toNat ≤ 57 := digit.2
  unfold Text.isBlank
  simp only [Bool.or_eq_false_iff, Bool.and_eq_false_iff, beq_eq_false_iff_ne, decide_eq_false_iff_not]
  omega

theorem cut_append (mark : Char) (before after : Text) (clean : mark ∉ before) :
    cut mark (before ++ mark :: after) = some (before, after) := by
  induction before with
  | nil => simp [cut]
  | cons c rest ih =>
      rw [List.mem_cons, not_or] at clean
      rw [List.cons_append, cut, if_neg (Ne.symm clean.1), ih clean.2]
      rfl

theorem cut_clean (mark : Char) (s : Text) (clean : mark ∉ s) : cut mark s = none := by
  induction s with
  | nil => rfl
  | cons c rest ih =>
      rw [List.mem_cons, not_or] at clean
      rw [cut, if_neg (Ne.symm clean.1), ih clean.2]
      rfl

theorem cut_none (mark : Char) (s : Text) (uncut : cut mark s = none) : mark ∉ s := by
  induction s with
  | nil => exact List.not_mem_nil
  | cons c rest ih =>
      rw [cut] at uncut
      split at uncut
      · cases uncut
      · rename_i other
        rw [List.mem_cons, not_or]
        exact ⟨Ne.symm other, ih (Option.map_eq_none_iff.mp uncut)⟩

theorem cut_some (mark : Char) (s before after : Text) (found : cut mark s = some (before, after)) :
    s = before ++ mark :: after ∧ mark ∉ before := by
  induction s generalizing before with
  | nil => cases found
  | cons c rest ih =>
      rw [cut] at found
      split at found
      · rename_i same
        cases found
        rw [same]
        exact ⟨rfl, List.not_mem_nil⟩
      · rename_i other
        obtain ⟨⟨front, back⟩, later, same⟩ := Option.map_eq_some_iff.mp found
        cases same
        obtain ⟨whole, clean⟩ := ih front later
        rw [List.mem_cons, not_or, whole]
        exact ⟨rfl, Ne.symm other, clean⟩

theorem cut_later (mark : Char) (front s : Text) (clean : mark ∉ front) :
    cut mark (front ++ s) = (cut mark s).map fun (before, after) => (front ++ before, after) := by
  induction front with
  | nil => simp
  | cons c rest ih =>
      rw [List.mem_cons, not_or] at clean
      rw [List.cons_append, cut, if_neg (Ne.symm clean.1), ih clean.2, Option.map_map]
      rfl

theorem cut_last_clean (mark : Char) (s : Text) (clean : mark ∉ s) : cutLast mark s = none := by
  induction s with
  | nil => rfl
  | cons c rest ih =>
      rw [List.mem_cons, not_or] at clean
      rw [cutLast, ih clean.2]
      exact if_neg (Ne.symm clean.1)

theorem cut_last_append (mark : Char) (before after : Text) (clean : mark ∉ after) :
    cutLast mark (before ++ mark :: after) = some (before, after) := by
  induction before with
  | nil => simp [cutLast, cut_last_clean mark after clean]
  | cons c rest ih => rw [List.cons_append, cutLast, ih]

theorem cut_last_some (mark : Char) (s before after : Text) (found : cutLast mark s = some (before, after)) :
    s = before ++ mark :: after := by
  induction s generalizing before with
  | nil => cases found
  | cons c rest ih =>
      rw [cutLast] at found
      split at found
      · rename_i front back later
        cases found
        rw [ih front later]
        rfl
      · split at found
        · rename_i same
          cases found
          rw [same]
          rfl
        · cases found

theorem infix_trim_start (c : Char) (rest s : Text) (present : isBlank c = false) (within : c :: rest <:+: s) :
    c :: rest <:+: trimStart s := by
  induction s with
  | nil => exact within
  | cons d s ih =>
      by_cases blank : isBlank d = true
      · have inside : c :: rest <:+: s := by
          refine (List.infix_cons_iff.mp within).resolve_left fun leads => ?_
          rw [(List.cons_prefix_cons.mp leads).1, blank] at present
          cases present
        rw [trimStart, List.dropWhile_cons_of_pos blank]
        exact ih inside
      · rwa [trimStart, List.dropWhile_cons_of_neg blank]

theorem infix_trim (g s : Text) (c d : Char) (rest front : Text) (starts : g = c :: rest) (ends : g = front ++ [d])
    (present : isBlank c = false) (present' : isBlank d = false) : g <:+: s ↔ g <:+: trim s := by
  constructor
  · intro within
    have turned : d :: front.reverse <:+: (trimStart s).reverse := by
      have back := List.reverse_infix.mpr (infix_trim_start c rest s present (starts ▸ within))
      rwa [← starts, ends, List.reverse_append, List.reverse_singleton, List.singleton_append] at back
    have kept := List.reverse_infix.mpr (infix_trim_start d front.reverse _ present' turned)
    rwa [List.reverse_cons, List.reverse_reverse, ← ends] at kept
  · intro within
    obtain ⟨before, after, whole, -, -⟩ := framed_trim s
    rw [whole]
    exact within.trans (List.infix_append before (trim s) after)

theorem trim_head (s rest : Text) (c : Char) (whole : trim s = c :: rest) : isBlank c = false := by
  by_contra blank
  rw [Bool.not_eq_false] at blank
  have kept := trimStart_trim s
  rw [whole, trimStart, List.dropWhile_cons_of_pos blank] at kept
  have short := (List.dropWhile_sublist isBlank (l := rest)).length_le
  rw [kept, List.length_cons] at short
  omega

theorem join_cons (separator part : Text) (parts : List Text) (more : parts ≠ []) :
    join separator (part :: parts) = part ++ separator ++ join separator parts := by
  cases parts with
  | nil => exact absurd rfl more
  | cons next rest => rfl

theorem join_keeps (P : Text → Prop) (separator : Text) (empty : P []) (between : P separator)
    (behind : ∀ a b, P a → P b → P (a ++ b)) (parts : List Text) (each : ∀ part ∈ parts, P part) :
    P (join separator parts) := by
  induction parts with
  | nil => exact empty
  | cons part rest ih =>
      rw [List.forall_mem_cons] at each
      by_cases last : rest = []
      · subst last
        exact each.1
      · rw [join_cons _ _ _ last]
        exact behind _ _ (behind _ _ each.1 between) (ih each.2)

theorem infix_join (separator : Char) (g : Text) (given : g ≠ []) (parts : List Text)
    (within : ∀ rest, rest <:+ parts → ∀ y, separator :: y <:+ g → ¬ y <+: join [separator] rest) :
    g <:+: join [separator] parts ↔ ∃ part ∈ parts, g <:+: part := by
  induction parts with
  | nil => simp [join, given]
  | cons part rest ih =>
      have ih := ih fun some_rest later => within some_rest (later.trans (List.suffix_cons _ _))
      rw [List.exists_mem_cons_iff, ← ih]
      by_cases last : rest = []
      · subst last
        simp [join, given]
      · have apart := within rest (List.suffix_cons _ _)
        rw [join_cons _ _ _ last, List.append_assoc, List.singleton_append]
        constructor
        · intro inside
          rcases List.infix_append_iff.mp inside with front | back | ⟨x, y, rfl, ends, starts⟩
          · exact .inl front
          · refine .inr ((List.infix_cons_iff.mp back).resolve_left fun leads => ?_)
            rcases List.prefix_cons_iff.mp leads with none | ⟨y, rfl, starts⟩
            · exact given none
            · exact apart y (List.suffix_refl _) starts
          · rcases List.prefix_cons_iff.mp starts with rfl | ⟨z, rfl, leads⟩
            · rw [List.append_nil]
              exact .inl ends.isInfix
            · exact absurd leads (apart z (List.suffix_append _ _))
        · rintro (front | back)
          · exact front.trans (List.prefix_append _ _).isInfix
          · exact back.trans ((List.suffix_cons _ _).trans (List.suffix_append _ _)).isInfix

theorem suffix_behind (c : Char) (y a b : Text) (foreign : c ∉ a) (tail : c :: y <:+ a ++ b) : c :: y <:+ b := by
  rcases List.suffix_or_suffix_of_suffix tail (List.suffix_append a b) with within | ⟨w, whole⟩
  · exact within
  · rw [← whole, List.suffix_append_self_iff] at tail
    cases w with
    | nil => exact whole ▸ List.suffix_refl _
    | cons d w =>
        obtain rfl : d = c := (List.cons.inj whole).1
        exact absurd (tail.subset List.mem_cons_self) foreign

theorem suffix_ahead (c : Char) (y a b : Text) (foreign : c ∉ b) (tail : c :: y <:+ a ++ b) :
    ∃ v, y = v ++ b ∧ c :: v <:+ a := by
  rcases List.suffix_or_suffix_of_suffix tail (List.suffix_append a b) with within | ⟨w, whole⟩
  · exact absurd (within.subset List.mem_cons_self) foreign
  · rw [← whole, List.suffix_append_self_iff] at tail
    cases w with
    | nil =>
        obtain rfl : b = c :: y := whole
        exact absurd List.mem_cons_self foreign
    | cons d w =>
        obtain ⟨rfl, rest⟩ := List.cons.inj whole
        exact ⟨w, rest.symm, tail⟩

section Span

variable (p : Char → Bool) (body rest : Text)

theorem span_exact (inside : ∀ c ∈ body, p c = true) (stops : ∀ c ∈ rest.head?, p c = false) :
    (body ++ rest).takeWhile p = body ∧ (body ++ rest).dropWhile p = rest := by
  rw [List.takeWhile_append_of_pos inside, List.dropWhile_append_of_pos inside]
  cases rest with
  | nil => exact ⟨List.append_nil body, rfl⟩
  | cons c others =>
      have stop : ¬ p c = true := by simp [stops c rfl]
      rw [List.takeWhile_cons_of_neg stop, List.dropWhile_cons_of_neg stop, List.append_nil]
      exact ⟨rfl, rfl⟩

theorem drop_span (s : Text) : s.drop (s.takeWhile p).length = s.dropWhile p := by
  have parts : (s.takeWhile p ++ s.dropWhile p).drop (s.takeWhile p).length = s.dropWhile p := List.drop_left
  rwa [List.takeWhile_append_dropWhile] at parts

end Span

theorem without_end_iff (ending s t : Text) : withoutEnd ending s = some t ↔ s = t ++ ending := by
  unfold withoutEnd
  constructor
  · intro cut
    split at cut
    · rename_i tail
      obtain ⟨front, rfl⟩ := List.isSuffixOf_iff_suffix.mp tail
      simpa using cut
    · cases cut
  · rintro rfl
    rw [if_pos (List.isSuffixOf_iff_suffix.mpr (List.suffix_append t ending))]
    simp

theorem slash_lower (c : Char) : c.toLower = '/' ↔ c = '/' := by
  unfold Char.toLower
  split
  · rename_i upper
    have above : c.val.toNat ≥ 65 ∧ c.val.toNat ≤ 90 := upper
    constructor
    · intro turned
      have same : (c.val + 32).toNat = 47 := congrArg (fun d : Char => d.val.toNat) turned
      rw [UInt32.toNat_add] at same
      have small : (32 : UInt32).toNat = 32 := rfl
      omega
    · rintro rfl
      exact absurd above.1 (by decide)
  · rfl

end Gateway.Text
