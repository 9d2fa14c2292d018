import Gateway.Forwarding.Candidate
import Gateway.Proofs.Forwarding.Lead

set_option autoImplicit false

namespace Gateway.Forwarding

inductive Offer where
  | authority (value : Authority) (priority : Priority)
  | port (number : UInt16) (priority : Priority)

namespace Offer

def authority? : Offer → Option (Ranked Authority)
  | authority a p => some (a, p)
  | port _ _ => none

def port? : Offer → Option (Ranked UInt16)
  | authority _ _ => none
  | port n p => some (n, p)

def authorities (offers : List Offer) : List (Ranked Authority) := offers.filterMap authority?

def ports (offers : List Offer) : List (Ranked UInt16) := offers.filterMap port?

def IsSound : Offer → Prop
  | authority _ p => p ≠ .unset
  | port n p => 0 < n ∧ p ≠ .unset

def Gives (n : UInt16) : Offer → Prop
  | authority a _ => a.port = some n
  | port m _ => m = n ∧ 0 < m

end Offer

def ownPort? (x : Ranked Authority) : Option (Ranked UInt16) := (x.1.port.filter (0 < ·)).map (·, x.2)

theorem own_port_given (x : Ranked Authority) (y : Ranked UInt16) (own : ownPort? x = some y) :
    x.1.port = some y.1 ∧ y.2 = x.2 := by
  obtain ⟨n, kept, rfl⟩ := Option.map_eq_some_iff.mp own
  exact ⟨(Option.filter_eq_some_iff.mp kept).1, rfl⟩

theorem own_port_sound (x : Ranked Authority) (y : Ranked UInt16) (own : ownPort? x = some y) : 0 < y.1 := by
  obtain ⟨n, kept, rfl⟩ := Option.map_eq_some_iff.mp own
  simpa using (Option.filter_eq_some_iff.mp kept).2

theorem own_port_positive (x : Ranked Authority) (n : UInt16) (port : x.1.port = some n) (positive : 0 < n) :
    ownPort? x = some (n, x.2) := by
  simp [ownPort?, port, positive]

namespace Candidate

variable (c : Candidate) (offers : List Offer)

def take : Offer → Candidate
  | .authority a p => c.offer a p
  | .port n p => c.offerPort n p

def takeAll : Candidate := offers.foldl take c

def HoldsHost (kept : Option (Ranked Authority)) : Prop :=
  c.host = kept.map (·.1.host) ∧ c.hostPriority = kept.elim .unset (·.2)

def HoldsPort (kept : Option (Ranked UInt16)) : Prop :=
  c.port = kept.map (·.1) ∧ c.portPriority = kept.elim .unset (·.2)

theorem take_all_append (o : Offer) : c.takeAll (offers ++ [o]) = (c.takeAll offers).take o := by
  simp [takeAll]

@[simp] theorem offer_port_host (n : UInt16) (p : Priority) : (c.offerPort n p).host = c.host := by
  unfold offerPort
  split <;> rfl

@[simp] theorem offer_port_host_priority (n : UInt16) (p : Priority) :
    (c.offerPort n p).hostPriority = c.hostPriority := by
  unfold offerPort
  split <;> rfl

theorem refused_iff (kept : Option (Ranked Authority)) (held : c.HoldsHost kept) (x : Ranked Authority) :
    c.host.isSome ∧ ¬ c.hostPriority.below x.2 ↔ ¬ outranks kept x = true := by
  rw [held.1, held.2]
  cases kept with
  | none => simp [outranks]
  | some y => simp [outranks]

theorem offer_refused (kept : Option (Ranked Authority)) (held : c.HoldsHost kept) (a : Authority) (p : Priority)
    (below : ¬ outranks kept (a, p) = true) : c.offer a p = c := by
  rw [offer, if_pos ((refused_iff c kept held (a, p)).mpr below)]

theorem offer_taken (kept : Option (Ranked Authority)) (held : c.HoldsHost kept) (a : Authority) (p : Priority)
    (above : outranks kept (a, p) = true) :
    c.offer a p =
      if p = .forwarded then ⟨some a.host, p, a.port, p⟩
      else match a.port with
        | some n => offerPort ⟨some a.host, p, c.port, c.portPriority⟩ n p
        | none => ⟨some a.host, p, c.port, c.portPriority⟩ :=
  if_neg (mt (refused_iff c kept held (a, p)).mp (not_not_intro above))

theorem offer_holds_host (kept : Option (Ranked Authority)) (held : c.HoldsHost kept) (a : Authority) (p : Priority) :
    (c.offer a p).HoldsHost (prefer kept (a, p)) := by
  by_cases above : outranks kept (a, p) = true
  · rw [prefer, if_pos above, offer_taken c kept held a p above]
    by_cases structured : p = .forwarded
    · rw [if_pos structured]
      exact ⟨rfl, rfl⟩
    · rw [if_neg structured]
      cases a.port with
      | none => exact ⟨rfl, rfl⟩
      | some n => exact ⟨by simp, by simp⟩
  · rw [prefer, if_neg above, offer_refused c kept held a p above]
    exact held

theorem offer_port_holds_port (kept : Option (Ranked UInt16)) (held : c.HoldsPort kept) (n : UInt16) (p : Priority)
    (positive : 0 < n) (set : p ≠ .unset) : (c.offerPort n p).HoldsPort (prefer kept (n, p)) := by
  have same : c.portPriority.below p = outranks kept (n, p) := by
    rw [held.2]
    cases kept with
    | none => cases p <;> first | rfl | exact absurd rfl set
    | some y => rfl
  rw [offerPort, prefer, same]
  by_cases above : outranks kept (n, p) = true
  · rw [if_pos above, if_pos ⟨positive, above⟩]
    exact ⟨rfl, rfl⟩
  · rw [if_neg above, if_neg fun both => above both.2]
    exact held

theorem take_all_host : (empty.takeAll offers).HoldsHost (leader (Offer.authorities offers)) := by
  induction offers using List.reverseRecOn with
  | nil => exact ⟨rfl, rfl⟩
  | append_singleton offers o ih =>
      rw [take_all_append, Offer.authorities, List.filterMap_append]
      cases o with
      | authority a p =>
          rw [show [Offer.authority a p].filterMap Offer.authority? = [(a, p)] from rfl, leader_append]
          exact offer_holds_host _ _ ih a p
      | port n p =>
          rw [show [Offer.port n p].filterMap Offer.authority? = [] from rfl, List.append_nil]
          exact ⟨(offer_port_host _ n p).trans ih.1, (offer_port_host_priority _ n p).trans ih.2⟩

theorem lend_holds_port (kept : Option (Ranked UInt16)) (held : c.HoldsPort kept) (a : Authority) (p : Priority)
    (set : p ≠ .unset) :
    (match a.port with
      | some n => c.offerPort n p
      | none => c).HoldsPort ((ownPort? (a, p)).elim kept (prefer kept)) := by
  rw [ownPort?]
  cases port : a.port with
  | none => exact held
  | some n =>
      by_cases positive : 0 < n
      · rw [Option.filter_some_pos (by simpa using positive)]
        exact offer_port_holds_port c kept held n p positive set
      · rw [Option.filter_some_neg (by simpa using positive)]
        change (c.offerPort n p).HoldsPort kept
        rw [offerPort, if_neg fun both => positive both.1]
        exact held

theorem leader_lent (front back : List (Ranked UInt16)) (x : Ranked Authority) (different : ∀ y ∈ back, y.2 ≠ x.2) :
    leader ((front ++ [x].filterMap ownPort?) ++ back) =
      (ownPort? x).elim (leader (front ++ back)) (prefer (leader (front ++ back))) := by
  cases own : ownPort? x with
  | none => simp [own]
  | some y =>
      rw [← (own_port_given x y own).2] at different
      rw [List.filterMap_cons_some own, List.filterMap_nil, List.append_assoc]
      exact leader_insert front back y different

theorem take_all_port (sound : ∀ o ∈ offers, o.IsSound)
    (legacy : ∀ x ∈ records none (Offer.authorities offers), x.2 ≠ .forwarded)
    (apart : ∀ x ∈ records none (Offer.authorities offers), ∀ y ∈ Offer.ports offers, y.2 ≠ x.2) :
    (empty.takeAll offers).HoldsPort
      (leader ((records none (Offer.authorities offers)).filterMap ownPort? ++ Offer.ports offers)) := by
  induction offers using List.reverseRecOn with
  | nil => exact ⟨rfl, rfl⟩
  | append_singleton offers o ih =>
      have host := take_all_host offers
      have sound' : ∀ o ∈ offers, o.IsSound := fun o member => sound o (List.mem_append_left _ member)
      have last : o.IsSound := sound o (by simp)
      rw [take_all_append]
      cases o with
      | port n p =>
          have more : Offer.authorities (offers ++ [.port n p]) = Offer.authorities offers := by
            simp [Offer.authorities, Offer.authority?]
          have ports : Offer.ports (offers ++ [.port n p]) = Offer.ports offers ++ [(n, p)] := by
            simp [Offer.ports, Offer.port?]
          rw [more, ports] at apart
          rw [more] at legacy
          rw [more, ports, ← List.append_assoc, leader_append]
          refine offer_port_holds_port _ _ (ih sound' legacy ?_) n p last.1 last.2
          exact fun x taken y member => apart x taken y (List.mem_append_left _ member)
      | authority a p =>
          have more : Offer.authorities (offers ++ [.authority a p]) = Offer.authorities offers ++ [(a, p)] := by
            simp [Offer.authorities, Offer.authority?]
          have ports : Offer.ports (offers ++ [.authority a p]) = Offer.ports offers := by
            simp [Offer.ports, Offer.port?]
          rw [more, ports, records_append] at apart
          rw [more, records_append] at legacy
          rw [more, ports, records_append]
          have before := ih sound' (fun x taken => legacy x (List.mem_append_left _ taken)) fun x taken =>
            apart x (List.mem_append_left _ taken)
          by_cases above : outranks (leader (Offer.authorities offers)) (a, p) = true
          · rw [if_pos above] at legacy apart ⊢
            have unstructured : p ≠ .forwarded := legacy (a, p) (by simp)
            have different : ∀ y ∈ Offer.ports offers, y.2 ≠ p := apart (a, p) (by simp)
            have lent :=
              lend_holds_port
                ⟨some a.host, p, (empty.takeAll offers).port, (empty.takeAll offers).portPriority⟩ _
              before a p last
            rw [take, offer_taken _ _ host a p above, if_neg unstructured, List.filterMap_append,
              leader_lent _ _ _ different]
            exact lent
          · rw [if_neg above, List.append_nil, take, offer_refused _ _ host a p above]
            exact before

theorem take_dominated (o : Offer) (some_host : c.host.isSome = true)
    (authority : ∀ x, o.authority? = some x → x.2.rank ≤ c.hostPriority.rank)
    (port : ∀ y, o.port? = some y → y.2.rank ≤ c.portPriority.rank) : c.take o = c := by
  cases o with
  | authority a p =>
      have least := authority (a, p) rfl
      have below : ¬ c.hostPriority.below p = true := by
        rw [Priority.below_iff]
        exact Int.not_lt.mpr least
      rw [take, offer, if_pos ⟨some_host, below⟩]
  | port n p =>
      have least := port (n, p) rfl
      have below : ¬ c.portPriority.below p = true := by
        rw [Priority.below_iff]
        exact Int.not_lt.mpr least
      rw [take, offerPort, if_neg fun both => below both.2]

theorem take_all_dominated (some_host : c.host.isSome = true)
    (authorities : ∀ x ∈ Offer.authorities offers, x.2.rank ≤ c.hostPriority.rank)
    (ports : ∀ y ∈ Offer.ports offers, y.2.rank ≤ c.portPriority.rank) : c.takeAll offers = c := by
  induction offers with
  | nil => rfl
  | cons o rest ih =>
      have kept : c.take o = c := by
        apply take_dominated c o some_host
        · exact fun x found => authorities x (List.mem_filterMap.mpr ⟨o, List.mem_cons_self, found⟩)
        · exact fun y found => ports y (List.mem_filterMap.mpr ⟨o, List.mem_cons_self, found⟩)
      rw [takeAll, List.foldl_cons, kept]
      apply ih
      · exact fun x member => authorities x ((List.sublist_cons_self o rest).filterMap _ |>.subset member)
      · exact fun y member => ports y ((List.sublist_cons_self o rest).filterMap _ |>.subset member)

theorem take_all_structured (a : Authority) (leads : Leads (a, .forwarded) (Offer.authorities offers))
    (ports : ∀ y ∈ Offer.ports offers, y.2.rank ≤ Priority.forwarded.rank) :
    empty.takeAll offers = ⟨some a.host, .forwarded, a.port, .forwarded⟩ := by
  obtain ⟨before, after, whole, lower, bounded⟩ := leads
  obtain ⟨front, back, rfl, fronts, backs⟩ := List.filterMap_eq_append_iff.mp whole
  obtain ⟨between, o, rest, rfl, none_between, found, rests⟩ := List.filterMap_eq_cons_iff.mp backs
  obtain rfl : o = .authority a .forwarded := by
    cases o with
    | authority b p => simpa [Offer.authority?] using found
    | port n p => cases found
  have earlier : Offer.authorities (front ++ between) = before := by
    rw [Offer.authorities, List.filterMap_append, fronts, List.filterMap_eq_nil_iff.mpr none_between, List.append_nil]
  have above : outranks (leader (Offer.authorities (front ++ between))) (a, .forwarded) = true := by
    rw [earlier, outranks_leader]
    exact lower
  have taken : empty.takeAll ((front ++ between) ++ [.authority a .forwarded]) =
      ⟨some a.host, .forwarded, a.port, .forwarded⟩ := by
    rw [take_all_append, take, offer_taken _ _ (take_all_host _) a .forwarded above, if_pos rfl]
  have split : front ++ (between ++ .authority a .forwarded :: rest) =
      ((front ++ between) ++ [.authority a .forwarded]) ++ rest := by
    simp
  rw [split, takeAll, List.foldl_append]
  change (empty.takeAll ((front ++ between) ++ [.authority a .forwarded])).takeAll rest = _
  rw [taken]
  apply take_all_dominated
  · rfl
  · exact fun x member => bounded x (rests ▸ member)
  · intro y member
    apply ports y
    rw [split]
    exact ((List.sublist_append_right _ rest).filterMap Offer.port?).subset member

theorem offer_port_given (m n : UInt16) (p : Priority) (port : (c.offerPort m p).port = some n) :
    c.port = some n ∨ m = n ∧ 0 < m := by
  unfold offerPort at port
  split at port
  · rename_i taken
    exact .inr ⟨Option.some.inj port, taken.1⟩
  · exact .inl port

theorem offer_given (a : Authority) (n : UInt16) (p : Priority) (port : (c.offer a p).port = some n) :
    c.port = some n ∨ a.port = some n := by
  unfold offer at port
  split at port
  · exact .inl port
  · dsimp only at port
    split at port
    · exact .inr port
    · cases own : a.port with
      | none =>
          rw [own] at port
          exact .inl port
      | some m =>
          rw [own] at port
          exact (offer_port_given _ m n p port).imp id fun taken => congrArg some taken.1

theorem take_all_given (n : UInt16) (port : (empty.takeAll offers).port = some n) : ∃ o ∈ offers, o.Gives n := by
  induction offers using List.reverseRecOn with
  | nil => cases port
  | append_singleton offers o ih =>
      have earlier (kept : (empty.takeAll offers).port = some n) : ∃ o' ∈ offers ++ [o], o'.Gives n := by
        obtain ⟨o', member, gives⟩ := ih kept
        exact ⟨o', List.mem_append_left _ member, gives⟩
      have last : o ∈ offers ++ [o] := List.mem_append_right _ (List.mem_singleton_self o)
      rw [take_all_append] at port
      cases o with
      | authority a p => exact (offer_given _ a n p port).elim earlier fun own => ⟨_, last, own⟩
      | port m p => exact (offer_port_given _ m n p port).elim earlier fun taken => ⟨_, last, taken⟩

theorem below_self (p : Priority) : ¬ p.below p = true := by
  rw [Priority.below_iff]
  exact Int.lt_irrefl _

theorem offer_held (a : Authority) (p : Priority) :
    (c.offer a p).host.isSome = true ∧ ¬ (c.offer a p).hostPriority.below p = true := by
  by_cases refused : c.host.isSome = true ∧ ¬ c.hostPriority.below p = true
  · rw [offer, if_pos refused]
    exact refused
  · rw [offer, if_neg refused]
    dsimp only
    by_cases structured : p = .forwarded
    · rw [if_pos structured]
      exact ⟨rfl, below_self p⟩
    · rw [if_neg structured]
      cases a.port with
      | none => exact ⟨rfl, below_self p⟩
      | some n => simpa using below_self p

theorem offer_again (a b : Authority) (p : Priority) : (c.offer a p).offer b p = c.offer a p :=
  if_pos (offer_held c a p)

theorem offer_port_held (n : UInt16) (p : Priority) (positive : 0 < n) :
    ¬ (c.offerPort n p).portPriority.below p = true := by
  unfold offerPort
  split
  · exact below_self p
  · rename_i refused
    exact fun below => refused ⟨positive, below⟩

theorem offer_port_again (n m : UInt16) (p : Priority) (positive : 0 < n) :
    (c.offerPort n p).offerPort m p = c.offerPort n p :=
  if_neg fun both => offer_port_held c n p positive both.2

end Candidate

end Gateway.Forwarding
