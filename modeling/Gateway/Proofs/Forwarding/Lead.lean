import Mathlib.Data.List.Induction
import Gateway.Forwarding.Priority

set_option autoImplicit false

namespace Gateway.Forwarding

theorem Priority.below_iff (p q : Priority) : p.below q = true ↔ p.rank < q.rank := decide_eq_true_iff

theorem Priority.rank_injective (p q : Priority) (same : p.rank = q.rank) : p = q := by
  cases p <;> cases q <;> first | rfl | exact absurd same (by decide)

theorem Priority.rank_le_forced (p : Priority) : p.rank ≤ forced.rank := by
  cases p <;> decide

variable {α β : Type}

abbrev Ranked (α : Type) := α × Priority

def Leads (x : Ranked α) (offers : List (Ranked α)) : Prop :=
  ∃ before after, offers = before ++ x :: after ∧ (∀ y ∈ before, y.2.rank < x.2.rank) ∧
    ∀ y ∈ after, y.2.rank ≤ x.2.rank

def outranks (kept : Option (Ranked α)) (x : Ranked α) : Bool := kept.all (·.2.below x.2)

def prefer (kept : Option (Ranked α)) (x : Ranked α) : Option (Ranked α) := if outranks kept x then some x else kept

def leader (offers : List (Ranked α)) : Option (Ranked α) := offers.foldl prefer none

theorem outranks_some (x y : Ranked α) : outranks (some x) y = true ↔ x.2.rank < y.2.rank :=
  Priority.below_iff x.2 y.2

theorem leads_iff_first (x : Ranked α) (offers : List (Ranked α)) :
    Leads x offers ↔ offers.find? (·.2 = x.2) = some x ∧ ∀ y ∈ offers, y.2.rank ≤ x.2.rank := by
  rw [List.find?_eq_some_iff_append]
  constructor
  · rintro ⟨before, after, rfl, lower, bounded⟩
    refine ⟨⟨by simp, before, after, rfl, ?_⟩, ?_⟩
    · intro y member
      have less := lower y member
      have different : y.2 ≠ x.2 := fun same => by simp [same] at less
      simpa using different
    · intro y member
      rcases List.mem_append.mp member with front | back
      · exact Int.le_of_lt (lower y front)
      · rcases List.mem_cons.mp back with rfl | later
        · exact Int.le_refl _
        · exact bounded y later
  · rintro ⟨⟨-, before, after, rfl, different⟩, bounded⟩
    refine ⟨before, after, rfl, ?_, ?_⟩
    · intro y member
      have other : y.2.rank ≠ x.2.rank := by
        intro same
        have := different y member
        simp [Priority.rank_injective _ _ same] at this
      have most := bounded y (List.mem_append_left _ member)
      omega
    · exact fun y member => bounded y (by simp [member])

theorem leads_first (x : Ranked α) (rest : List (Ranked α)) (bounded : ∀ y ∈ rest, y.2.rank ≤ x.2.rank) :
    Leads x (x :: rest) :=
  ⟨[], rest, rfl, nofun, bounded⟩

theorem leads_bound (x y : Ranked α) (offers : List (Ranked α)) (leads : Leads x offers) (member : y ∈ offers) :
    y.2.rank ≤ x.2.rank := ((leads_iff_first x offers).mp leads).2 y member

theorem leads_mem (x : Ranked α) (offers : List (Ranked α)) (leads : Leads x offers) : x ∈ offers := by
  obtain ⟨before, after, rfl, -, -⟩ := leads
  simp

theorem leads_unique (x y : Ranked α) (offers : List (Ranked α)) (leads : Leads x offers)
    (other : Leads y offers) : x = y := by
  have least := leads_bound x y offers leads (leads_mem y offers other)
  have most := leads_bound y x offers other (leads_mem x offers leads)
  have same : x.2 = y.2 := Priority.rank_injective _ _ (Int.le_antisymm most least)
  have first := ((leads_iff_first x offers).mp leads).1
  rw [same, ((leads_iff_first y offers).mp other).1] at first
  exact (Option.some.inj first).symm

theorem leader_append (offers : List (Ranked α)) (y : Ranked α) :
    leader (offers ++ [y]) = prefer (leader offers) y := by
  simp [leader]

theorem leader_none (offers : List (Ranked α)) : leader offers = none ↔ offers = [] := by
  induction offers using List.reverseRecOn with
  | nil => simp [leader]
  | append_singleton offers y ih =>
      rw [leader_append, prefer]
      cases kept : leader offers with
      | none => simp [outranks]
      | some x =>
          split <;> simp

theorem leader_leads (offers : List (Ranked α)) (x : Ranked α) (found : leader offers = some x) : Leads x offers := by
  induction offers using List.reverseRecOn generalizing x with
  | nil => cases found
  | append_singleton offers y ih =>
      rw [leader_append, prefer] at found
      by_cases better : outranks (leader offers) y = true
      · obtain rfl : y = x := by simpa [better] using found
        refine ⟨offers, [], rfl, ?_, nofun⟩
        intro z member
        cases kept : leader offers with
        | none => simp [(leader_none offers).mp kept] at member
        | some best =>
            rw [kept, outranks_some] at better
            exact Int.lt_of_le_of_lt (leads_bound best z offers (ih best kept) member) better
      · rw [if_neg better] at found
        rw [found, outranks_some, Int.not_lt] at better
        obtain ⟨before, after, rfl, lower, bounded⟩ := ih x found
        refine ⟨before, after ++ [y], by simp, lower, ?_⟩
        intro z member
        rcases List.mem_append.mp member with inside | last
        · exact bounded z inside
        · obtain rfl := List.mem_singleton.mp last
          exact better

theorem leader_iff (offers : List (Ranked α)) (x : Ranked α) : leader offers = some x ↔ Leads x offers := by
  refine ⟨leader_leads offers x, ?_⟩
  intro leads
  cases found : leader offers with
  | none =>
      rw [leader_none] at found
      have member := leads_mem x offers leads
      simp [found] at member
  | some y => rw [leads_unique x y offers leads (leader_leads offers y found)]

theorem leader_cases (offers : List (Ranked α)) :
    offers = [] ∧ leader offers = none ∨ ∃ x, Leads x offers ∧ leader offers = some x := by
  cases found : leader offers with
  | none => exact .inl ⟨(leader_none offers).mp found, rfl⟩
  | some x => exact .inr ⟨x, (leader_iff offers x).mp found, rfl⟩

theorem leads_congr (a b : List (Ranked α)) (x : Ranked α)
    (same : ∀ p : Priority, a.find? (·.2 = p) = b.find? (·.2 = p))
    (leads : Leads x a) : Leads x b := by
  rw [leads_iff_first] at leads ⊢
  refine ⟨(same x.2).symm.trans leads.1, ?_⟩
  intro y member
  cases found : a.find? (·.2 = y.2) with
  | none =>
      rw [same, List.find?_eq_none] at found
      exact absurd (decide_eq_true rfl) (found y member)
  | some z =>
      have equal : z.2 = y.2 := by simpa using List.find?_some found
      rw [← equal]
      exact leads.2 z (List.mem_of_find?_eq_some found)

theorem leader_congr (a b : List (Ranked α)) (same : ∀ p : Priority, a.find? (·.2 = p) = b.find? (·.2 = p)) :
    leader a = leader b := by
  apply Option.ext
  intro x
  rw [leader_iff, leader_iff]
  exact ⟨leads_congr a b x same, leads_congr b a x fun p => (same p).symm⟩

def valued (f : α → β) (x : Ranked α) : Ranked β := (f x.1, x.2)

theorem leads_map (f : α → β) (x : Ranked α) (offers : List (Ranked α)) (leads : Leads x offers) :
    Leads (valued f x) (offers.map (valued f)) := by
  obtain ⟨before, after, rfl, lower, bounded⟩ := leads
  refine ⟨before.map (valued f), after.map (valued f), by simp, ?_, ?_⟩
  · exact List.forall_mem_map.mpr lower
  · exact List.forall_mem_map.mpr bounded

theorem leads_of_map (f : α → β) (y : Ranked β) (offers : List (Ranked α)) (leads : Leads y (offers.map (valued f))) :
    ∃ x, Leads x offers ∧ y = valued f x := by
  cases found : leader offers with
  | none =>
      rw [leader_none] at found
      have member := leads_mem y _ leads
      simp [found] at member
  | some x =>
      have first := (leader_iff offers x).mp found
      exact ⟨x, first, leads_unique _ _ _ leads (leads_map f x offers first)⟩

theorem prefer_some (x y : Ranked α) : prefer (some x) y = if x.2.rank < y.2.rank then some y else some x := by
  simp only [prefer, outranks_some]

theorem prefer_comm (kept : Option (Ranked α)) (x y : Ranked α) (different : x.2 ≠ y.2) :
    prefer (prefer kept x) y = prefer (prefer kept y) x := by
  have other : x.2.rank ≠ y.2.rank := fun same => different (Priority.rank_injective _ _ same)
  cases kept with
  | none =>
      change prefer (some x) y = prefer (some y) x
      rw [prefer_some, prefer_some]
      by_cases less : x.2.rank < y.2.rank
      · rw [if_pos less, if_neg (by omega)]
      · rw [if_neg less, if_pos (by omega)]
  | some z =>
      rw [prefer_some, prefer_some]
      by_cases first : z.2.rank < x.2.rank
      · rw [if_pos first, prefer_some]
        by_cases less : x.2.rank < y.2.rank
        · rw [if_pos less, if_pos (Int.lt_trans first less), prefer_some, if_neg (by omega)]
        · rw [if_neg less]
          by_cases second : z.2.rank < y.2.rank
          · rw [if_pos second, prefer_some, if_pos (by omega)]
          · rw [if_neg second, prefer_some, if_pos first]
      · rw [if_neg first, prefer_some]
        by_cases second : z.2.rank < y.2.rank
        · rw [if_pos second, prefer_some, if_neg (by omega)]
        · rw [if_neg second, prefer_some, if_neg first]

theorem prefer_all_comm (offers : List (Ranked α)) (kept : Option (Ranked α)) (x : Ranked α)
    (different : ∀ y ∈ offers, y.2 ≠ x.2) :
    offers.foldl prefer (prefer kept x) = prefer (offers.foldl prefer kept) x := by
  induction offers generalizing kept with
  | nil => rfl
  | cons y rest ih =>
      rw [List.forall_mem_cons] at different
      rw [List.foldl_cons, List.foldl_cons, prefer_comm kept x y (Ne.symm different.1), ih _ different.2]

theorem leader_insert (front back : List (Ranked α)) (x : Ranked α) (different : ∀ y ∈ back, y.2 ≠ x.2) :
    leader (front ++ x :: back) = prefer (leader (front ++ back)) x := by
  rw [leader, leader, List.foldl_append, List.foldl_append, List.foldl_cons, prefer_all_comm back _ x different]

-- The offers that outrank all offers before them.
def records (kept : Option (Ranked α)) : List (Ranked α) → List (Ranked α)
  | [] => []
  | x :: rest => if outranks kept x then x :: records (some x) rest else records kept rest

theorem records_bounded (x : Ranked α) (offers : List (Ranked α)) (bounded : ∀ y ∈ offers, y.2.rank ≤ x.2.rank) :
    records (some x) offers = [] := by
  induction offers with
  | nil => rfl
  | cons y rest ih =>
      rw [List.forall_mem_cons] at bounded
      have below : ¬ outranks (some x) y = true := by
        rw [outranks_some]
        exact Int.not_lt.mpr bounded.1
      rw [records, if_neg below]
      exact ih bounded.2

theorem records_first (x : Ranked α) (rest : List (Ranked α)) (bounded : ∀ y ∈ rest, y.2.rank ≤ x.2.rank) :
    records none (x :: rest) = [x] := congrArg (x :: ·) (records_bounded x rest bounded)

theorem outranks_leader (offers : List (Ranked α)) (x : Ranked α) :
    outranks (leader offers) x = true ↔ ∀ y ∈ offers, y.2.rank < x.2.rank := by
  cases found : leader offers with
  | none => simp [(leader_none offers).mp found, outranks]
  | some best =>
      have leads := (leader_iff offers best).mp found
      rw [outranks_some]
      constructor
      · exact fun above y member => Int.lt_of_le_of_lt (leads_bound best y offers leads member) above
      · exact fun above => above best (leads_mem best offers leads)

theorem leader_append_congr (front a b : List (Ranked α))
    (same : ∀ p : Priority, a.find? (·.2 = p) = b.find? (·.2 = p)) : leader (front ++ a) = leader (front ++ b) :=
  leader_congr _ _ fun p => by rw [List.find?_append, List.find?_append, same]

theorem leader_inserted (front back : List (Ranked α)) (x : Ranked α) (different : ∀ y ∈ back, y.2 ≠ x.2) :
    leader (front ++ x :: back) = leader (front ++ back) ∨
      leader (front ++ x :: back) = some x ∧ ∀ y ∈ front ++ back, y.2.rank < x.2.rank := by
  rw [leader_insert front back x different, prefer]
  by_cases above : outranks (leader (front ++ back)) x = true
  · rw [if_pos above]
    exact .inr ⟨rfl, (outranks_leader _ x).mp above⟩
  · rw [if_neg above]
    exact .inl rfl

theorem records_outranked (x : Ranked α) (rest : List (Ranked α)) (above : ∀ y ∈ rest, x.2.rank < y.2.rank) :
    records none (x :: rest) = x :: records none rest := by
  refine congrArg (x :: ·) ?_
  cases rest with
  | nil => rfl
  | cons y rest =>
      have better : outranks (some x) y = true := (outranks_some x y).mpr (above y List.mem_cons_self)
      rw [records, records, if_pos better]
      rfl

theorem records_level (x : Ranked α) (offers : List (Ranked α)) (leads : Leads x offers)
    (level : ∀ y ∈ offers, y.2 = x.2) :
    records none offers = [x] := by
  obtain ⟨before, after, rfl, lower, bounded⟩ := leads
  have none : before = [] := by
    apply List.eq_nil_iff_forall_not_mem.mpr
    intro y member
    have less := lower y member
    rw [level y (List.mem_append_left _ member)] at less
    exact Int.lt_irrefl _ less
  rw [none, List.nil_append]
  exact records_first x after bounded

section Two

variable (low high : Priority) (less : low.rank < high.rank) (x : Ranked α) (rest : List (Ranked α))
  (either : ∀ y ∈ rest, y.2 = low ∨ y.2 = high)

include less either

theorem records_high (isHigh : x.2 = high) : records (some x) rest = [] := by
  apply records_bounded
  intro y member
  rw [isHigh]
  rcases either y member with same | same
  · exact same ▸ Int.le_of_lt less
  · exact same ▸ Int.le_refl _

theorem records_low (isLow : x.2 = low) : records (some x) rest = (rest.find? (·.2 = high)).toList := by
  induction rest with
  | nil => rfl
  | cons y rest ih =>
      rw [List.forall_mem_cons] at either
      rcases either.1 with same | same
      · have different : y.2 ≠ high := fun isHigh => Int.lt_irrefl _ (isHigh ▸ same ▸ less)
        have below : ¬ outranks (some x) y = true := by
          rw [outranks_some, isLow, same]
          exact Int.lt_irrefl _
        rw [records, if_neg below, List.find?_cons_of_neg (by simpa using different)]
        exact ih either.2
      · have above : outranks (some x) y = true := by
          rw [outranks_some, isLow, same]
          exact less
        rw [records, if_pos above, records_high low high less y rest either.2 same,
          List.find?_cons_of_pos (by simpa using same)]
        rfl

theorem records_two :
    records none rest = (rest.head?.filter (·.2 = low)).toList ++ (rest.find? (·.2 = high)).toList := by
  cases rest with
  | nil => rfl
  | cons y rest =>
      rw [List.forall_mem_cons] at either
      change y :: records (some y) rest = _
      rw [List.head?_cons]
      rcases either.1 with same | same
      · have different : y.2 ≠ high := fun isHigh => Int.lt_irrefl _ (isHigh ▸ same ▸ less)
        rw [records_low low high less y rest either.2 same, List.find?_cons_of_neg (by simpa using different),
          Option.filter_some_pos (by simpa using same)]
        rfl
      · have different : y.2 ≠ low := fun isLow => Int.lt_irrefl _ (isLow ▸ same ▸ less)
        rw [records_high low high less y rest either.2 same, List.find?_cons_of_pos (by simpa using same),
          Option.filter_some_neg (by simpa using different)]
        rfl

end Two

theorem records_kept_append (offers : List (Ranked α)) (kept : Option (Ranked α)) (y : Ranked α) :
    records kept (offers ++ [y]) =
      records kept offers ++ if outranks (offers.foldl prefer kept) y then [y] else [] := by
  induction offers generalizing kept with
  | nil => rfl
  | cons x rest ih =>
      rw [List.cons_append, records, records, List.foldl_cons, prefer]
      by_cases better : outranks kept x = true
      · simp only [if_pos better, ih, List.cons_append]
      · simp only [if_neg better, ih]

theorem records_append (offers : List (Ranked α)) (y : Ranked α) :
    records none (offers ++ [y]) = records none offers ++ if outranks (leader offers) y then [y] else [] :=
  records_kept_append offers none y

theorem records_subset (kept : Option (Ranked α)) (offers : List (Ranked α)) : records kept offers ⊆ offers := by
  induction offers generalizing kept with
  | nil => exact List.Subset.refl []
  | cons x rest ih =>
      unfold records
      by_cases better : outranks kept x = true
      · rw [if_pos better]
        exact List.cons_subset_cons x (ih (some x))
      · rw [if_neg better]
        exact List.subset_cons_of_subset x (ih kept)

theorem leads_replaced (kept kept' rest : List (Ranked α)) (x : Ranked α) (lower : ∀ y ∈ kept, y.2.rank < x.2.rank)
    (lower' : ∀ y ∈ kept', y.2.rank < x.2.rank) (leads : Leads x (kept ++ rest)) : Leads x (kept' ++ rest) := by
  have passed (l : List (Ranked α)) (below : ∀ y ∈ l, y.2.rank < x.2.rank) : l.find? (·.2 = x.2) = none := by
    rw [List.find?_eq_none]
    intro y member
    have less := below y member
    have different : y.2 ≠ x.2 := fun same => by simp [same] at less
    simpa using different
  rw [leads_iff_first, List.find?_append, passed kept lower, Option.none_or] at leads
  rw [leads_iff_first, List.find?_append, passed kept' lower', Option.none_or]
  refine ⟨leads.1, fun y member => ?_⟩
  rcases List.mem_append.mp member with front | back
  · exact Int.le_of_lt (lower' y front)
  · exact leads.2 y (List.mem_append_right kept back)

theorem leads_renewed (kept rest : List (Ranked α)) (p : Priority) (level : ∀ y ∈ kept, y.2 = p) (x : Ranked α)
    (leads : Leads x (kept ++ rest)) : ∃ q, Leads (x.1, q) ((x.1, p) :: rest) := by
  by_cases above : p.rank < x.2.rank
  · refine ⟨x.2, leads_replaced kept [(x.1, p)] rest x (fun y member => ?_) (List.forall_mem_singleton.mpr above) leads⟩
    rw [level y member]
    exact above
  · refine ⟨p, leads_first (x.1, p) rest fun y member => ?_⟩
    exact Int.le_trans (leads_bound x y _ leads (List.mem_append_right kept member)) (Int.not_lt.mp above)

theorem leads_filter_map (f : Ranked α → Option (Ranked β)) (level : ∀ x y, f x = some y → y.2 = x.2)
    (offers : List (Ranked α)) (x : Ranked α) (y : Ranked β) (made : f x = some y) (leads : Leads x offers) :
    Leads y (offers.filterMap f) := by
  obtain ⟨before, after, rfl, lower, bounded⟩ := leads
  refine ⟨before.filterMap f, after.filterMap f, ?_, ?_, ?_⟩
  · rw [List.filterMap_append, List.filterMap_cons_some made]
  · intro z member
    obtain ⟨w, present, told⟩ := List.mem_filterMap.mp member
    rw [level w z told, level x y made]
    exact lower w present
  · intro z member
    obtain ⟨w, present, told⟩ := List.mem_filterMap.mp member
    rw [level w z told, level x y made]
    exact bounded w present

theorem leads_of_filter_map (f : Ranked α → Option (Ranked β)) (level : ∀ x y, f x = some y → y.2 = x.2)
    (offers : List (Ranked α)) (y : Ranked β) (leads : Leads y (offers.filterMap f)) :
    ∃ x, Leads x (offers.filter fun x => (f x).isSome) ∧ f x = some y := by
  have whole : (offers.filter fun x => (f x).isSome).filterMap f = offers.filterMap f := by
    rw [List.filterMap_filter]
    congr 1
    funext x
    cases f x <;> rfl
  rcases leader_cases (offers.filter fun x => (f x).isSome) with ⟨empty, -⟩ | ⟨x, first, -⟩
  · have member := leads_mem y _ leads
    simp [← whole, empty] at member
  · have counts : (f x).isSome = true := by simpa using (List.mem_filter.mp (leads_mem x _ first)).2
    obtain ⟨z, made⟩ := Option.isSome_iff_exists.mp counts
    have other := leads_filter_map f level _ x z made first
    rw [whole] at other
    exact ⟨x, first, made.trans (congrArg some (leads_unique z y _ other leads))⟩

end Gateway.Forwarding
