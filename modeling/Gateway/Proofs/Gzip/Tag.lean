import Mathlib.Data.List.Infix
import Gateway.Gzip.Fields
import Gateway.Proofs.Header.Value
import Gateway.Proofs.Text

set_option autoImplicit false

namespace Gateway.Gzip.Tag

theorem strip_nil : strip [] = [] := by rw [strip]

theorem strip_mark (rest : Text) : strip (mark ++ rest) = strip rest := by
  have leads : mark.isPrefixOf (mark ++ rest) = true := List.isPrefixOf_iff_prefix.mpr (List.prefix_append mark rest)
  have whole : mark ++ rest = '-' :: ("-gzip".toList ++ rest) := rfl
  rw [whole] at leads ⊢
  rw [strip, if_pos leads]
  rfl

theorem strip_cons (c : Char) (rest : Text) (other : ¬ mark <+: c :: rest) : strip (c :: rest) = c :: strip rest := by
  rw [strip, if_neg (by rwa [List.isPrefixOf_iff_prefix])]

theorem strip_induction {motive : Text → Prop} (empty : motive [])
    (marked : ∀ rest, motive rest → motive (mark ++ rest))
    (other : ∀ c rest, ¬ mark <+: c :: rest → motive rest → motive (c :: rest)) (s : Text) : motive s := by
  induction s using strip.induct with
  | case1 => exact empty
  | case2 c rest leads ih =>
      obtain ⟨tail, whole⟩ := List.isPrefixOf_iff_prefix.mp leads
      rw [← whole]
      apply marked
      have same : rest.drop (mark.length - 1) = tail := by
        have long : (c :: rest).drop mark.length = tail := by rw [← whole, List.drop_left]
        exact long
      rwa [← same]
  | case3 c rest leads ih => exact other c rest (by rwa [← List.isPrefixOf_iff_prefix]) ih

def Apart (a b : Text) : Prop := ∀ x y, mark = x ++ y → x <:+ a → y <+: b → x = [] ∨ y = []

theorem strip_append (a b : Text) (apart : Apart a b) : strip (a ++ b) = strip a ++ strip b := by
  induction a using strip_induction with
  | empty => rw [strip_nil, List.nil_append, List.nil_append]
  | marked rest ih =>
      rw [List.append_assoc, strip_mark, strip_mark]
      apply ih
      exact fun x y whole back front => apart x y whole (back.trans (List.suffix_append _ _)) front
  | other c rest leads ih =>
      have leads' : ¬ mark <+: c :: (rest ++ b) := by
        intro within
        rcases List.prefix_or_prefix_of_prefix within (List.prefix_append (c :: rest) b) with inside | across
        · exact leads inside
        · obtain ⟨y, whole⟩ := across
          have front : y <+: b := by
            rw [← whole] at within
            exact (List.prefix_append_right_inj _).mp within
          rcases apart _ y whole.symm (List.suffix_refl _) front with none | none
          · cases none
          · rw [none, List.append_nil] at whole
            exact leads (whole ▸ List.prefix_refl _)
      rw [List.cons_append, strip_cons c _ leads', strip_cons c rest leads, List.cons_append]
      apply congrArg (c :: ·)
      apply ih
      exact fun x y whole back front => apart x y whole (back.trans (List.suffix_cons _ _)) front

theorem apart_foreign_left (a b : Text) (foreign : ∀ c ∈ a, c ∉ mark) : Apart a b := by
  intro x y whole back _
  cases x with
  | nil => exact .inl rfl
  | cons c rest => exact (foreign c (back.subset List.mem_cons_self) (by simp [whole])).elim

theorem apart_foreign (a b : Text) (foreign : ∀ c ∈ b, c ∉ mark) : Apart a b := by
  intro x y whole _ front
  cases y with
  | nil => exact .inr rfl
  | cons c rest => exact (foreign c (front.subset List.mem_cons_self) (by simp [whole])).elim

theorem apart_foreign_cons (a b : Text) (c : Char) (foreign : c ∉ mark) : Apart a (c :: b) := by
  intro x y whole _ front
  cases y with
  | nil => exact .inr rfl
  | cons d rest =>
      obtain rfl : d = c := (List.cons_prefix_cons.mp front).1
      exact (foreign (by simp [whole])).elim

-- What begins like the mark and ends like it is the mark itself.
theorem unbordered : ∀ y ∈ mark.tails, y <+: mark → y = [] ∨ y = mark := by decide

theorem apart_mark (a b : Text) : Apart a (mark ++ b) := by
  intro x y whole _ front
  have back : y <:+ mark := ⟨x, whole.symm⟩
  have within : y <+: mark := List.prefix_of_prefix_length_le front (List.prefix_append mark b) back.length_le
  rcases unbordered y ((List.mem_tails _ _).mpr back) within with empty | all
  · exact .inr empty
  · left
    have lengths := congrArg List.length whole
    rw [all, List.length_append] at lengths
    exact List.eq_nil_of_length_eq_zero (by omega)

theorem strip_sublist (s : Text) : (strip s).Sublist s := by
  induction s using strip_induction with
  | empty => rw [strip_nil]
  | marked rest ih =>
      rw [strip_mark]
      exact ih.trans (List.sublist_append_right _ _)
  | other c rest leads ih =>
      rw [strip_cons c rest leads]
      exact ih.cons_cons c

theorem marked_iff (s : Text) : isMarked s = true ↔ mark <:+: s := Text.occurs_iff mark s

theorem unmarked_strip (s : Text) (unmarked : isMarked s = false) : strip s = s := by
  rw [Bool.eq_false_iff, Ne, marked_iff] at unmarked
  induction s using strip_induction with
  | empty => exact strip_nil
  | marked rest => exact (unmarked (List.prefix_append mark rest).isInfix).elim
  | other c rest leads ih =>
      rw [strip_cons c rest leads, ih fun inside => unmarked (List.infix_cons inside)]

theorem foreign_unmarked (s : Text) (foreign : ∀ c ∈ s, c ∉ mark) : isMarked s = false := by
  rw [Bool.eq_false_iff, Ne, marked_iff]
  intro within
  exact foreign '-' (within.subset (by decide)) (by decide)

theorem strip_foreign (a s b : Text) (foreign : ∀ c ∈ a, c ∉ mark) (foreign' : ∀ c ∈ b, c ∉ mark) :
    strip (a ++ s ++ b) = a ++ strip s ++ b := by
  rw [strip_append _ b (apart_foreign _ b foreign'), strip_append a s (apart_foreign_left a s foreign),
    unmarked_strip a (foreign_unmarked a foreign), unmarked_strip b (foreign_unmarked b foreign')]

theorem strip_foreign_cons (c : Char) (rest : Text) (foreign : c ∉ mark) : strip (c :: rest) = c :: strip rest := by
  apply strip_cons
  intro leads
  exact foreign ((List.cons_prefix_cons.mp leads).1 ▸ List.mem_cons_self)

theorem strip_inserted (a b : Text) (apart : Apart a b) : strip (a ++ mark ++ b) = strip (a ++ b) := by
  rw [List.append_assoc, strip_append a _ (apart_mark a b), strip_mark, strip_append a b apart]

theorem marked_shorter (s : Text) (marked : isMarked s = true) : (strip s).length < s.length := by
  obtain ⟨a, b, rfl⟩ := (marked_iff s).mp marked
  have front := (strip_sublist a).length_le
  have back := (strip_sublist b).length_le
  have some_mark : mark.length = 6 := rfl
  rw [List.append_assoc, strip_append a _ (apart_mark a b), strip_mark]
  simp only [List.length_append]
  omega

theorem gzip_parts (tag : Text) :
    ∃ a b, (b = [] ∨ b = ['"']) ∧ tag = a ++ b ∧ gzip tag = a ++ mark ++ b := by
  rw [gzip, Text.withoutEnd]
  by_cases quoted : ['"'].isSuffixOf tag = true
  · obtain ⟨inside, rfl⟩ := List.isSuffixOf_iff_suffix.mp quoted
    refine ⟨inside, ['"'], .inr rfl, rfl, ?_⟩
    rw [if_pos quoted]
    simp
  · refine ⟨tag, [], .inl rfl, (List.append_nil tag).symm, ?_⟩
    rw [if_neg quoted]
    simp

theorem gzip_marked (tag : Text) : isMarked (gzip tag) = true := by
  obtain ⟨a, b, -, -, marked⟩ := gzip_parts tag
  rw [marked_iff, marked]
  exact ⟨a, b, rfl⟩

theorem gzip_longer (tag : Text) : tag.length < (gzip tag).length := by
  obtain ⟨a, b, -, whole, marked⟩ := gzip_parts tag
  have some_mark : mark.length = 6 := rfl
  rw [marked, whole]
  simp only [List.length_append]
  omega

theorem strip_gzip (tag : Text) : strip (gzip tag) = strip tag := by
  obtain ⟨a, b, ending, whole, marked⟩ := gzip_parts tag
  rw [marked, strip_inserted, ← whole]
  apply apart_foreign
  rcases ending with rfl | rfl
  · exact nofun
  · exact List.forall_mem_singleton.mpr (by decide)

theorem strip_gzip_unmarked (tag : Text) (unmarked : isMarked tag = false) : strip (gzip tag) = tag := by
  rw [strip_gzip, unmarked_strip tag unmarked]

theorem gzip_readable (tag : Text) (readable : ∀ c ∈ tag, Header.Value.IsReadable c) :
    ∀ c ∈ gzip tag, Header.Value.IsReadable c := by
  obtain ⟨a, b, -, rfl, marked⟩ := gzip_parts tag
  rw [List.forall_mem_append] at readable
  rw [marked, List.forall_mem_append, List.forall_mem_append]
  have inserted : mark.all (decide <| Header.Value.IsReadable ·) = true := by decide
  exact ⟨⟨readable.1, fun c member => of_decide_eq_true (List.all_eq_true.mp inserted c member)⟩, readable.2⟩

end Gateway.Gzip.Tag
