import Gateway.Proofs.Authority
import Gateway.Proofs.Forwarding.Candidate

set_option autoImplicit false

namespace Gateway.Forwarding

theorem Priority.above_forwarded (p : Priority) (above : Priority.forwarded.rank < p.rank) : p = .forced := by
  cases p <;> first | rfl | exact absurd above (by decide)

inductive Bid where
  | host (name : Text) (priority : Priority)
  | port (number : UInt16) (priority : Priority)
  | authority (value : Authority) (priority : Priority)

namespace Bid

def host? : Bid → Option (Ranked Text)
  | host name p => some (name, p)
  | port _ _ => none
  | authority a p => some (a.host, p)

def port? : Bid → Option (Ranked UInt16)
  | host _ _ => none
  | port n p => some (n, p)
  | authority a p => a.port.map (·, p)

def hosts (bids : List Bid) : List (Ranked Text) := bids.filterMap host?

-- Nothing is offered at the priority of what was never set, and an authority was read from a text.
def IsSound : Bid → Prop
  | host _ p => p ≠ .unset
  | port _ p => p ≠ .unset
  | authority a p => p ≠ .unset ∧ ∃ text, Authority.read text = .ok a

def Gives (n : UInt16) (b : Bid) : Prop := 0 < n ∧ ∃ p, b.port? = some (n, p)

def ForcesPort (b : Bid) : Prop := ∃ n, 0 < n ∧ b.port? = some (n, .forced)

end Bid

namespace Candidate

variable (c : Candidate)

def place : Bid → Candidate
  | .host name p => c.offerHost name p
  | .port n p => c.offerPort n p
  | .authority a p => c.offer a p

def placeAll (bids : List Bid) : Candidate := bids.foldl place c

theorem place_all_append (front back : List Bid) : c.placeAll (front ++ back) = (c.placeAll front).placeAll back :=
  List.foldl_append

def KeepsHost (kept : Option (Ranked Text)) : Prop :=
  c.host = kept.map (·.1) ∧ c.hostPriority = kept.elim .unset (·.2)

def Admits (p : Priority) : Prop := c.host = none ∨ c.hostPriority.below p = true

section Admitted

variable (a : Authority) (p : Priority)

theorem admits_iff : c.Admits p ↔ ¬ (c.host.isSome = true ∧ ¬ c.hostPriority.below p = true) := by
  rw [not_and, not_not, Admits]
  cases c.host <;> simp

theorem offer_unadmitted (refused : ¬ c.Admits p) : c.offer a p = c := by
  rw [admits_iff, not_not] at refused
  exact if_pos refused

theorem offer_structured (admits : c.Admits .forwarded) :
    c.offer a .forwarded = ⟨some a.host, .forwarded, a.port, .forwarded⟩ :=
  (if_neg ((c.admits_iff .forwarded).mp admits)).trans (if_pos rfl)

theorem offer_unstructured (admits : c.Admits p) (unstructured : p ≠ .forwarded) :
    c.offer a p =
      match a.port with
      | some n => offerPort { c with host := some a.host, hostPriority := p } n p
      | none => { c with host := some a.host, hostPriority := p } :=
  (if_neg ((c.admits_iff p).mp admits)).trans (if_neg unstructured)

theorem offer_admitted_host (admits : c.Admits p) :
    (c.offer a p).host = some a.host ∧ (c.offer a p).hostPriority = p := by
  by_cases structured : p = .forwarded
  · subst structured
    rw [offer_structured c a admits]
    exact ⟨rfl, rfl⟩
  · rw [offer_unstructured c a p admits structured]
    cases a.port with
    | none => exact ⟨rfl, rfl⟩
    | some n => exact ⟨by simp, by simp⟩

end Admitted

theorem admits_outranks (kept : Option (Ranked Text)) (held : c.KeepsHost kept) (name : Text) (p : Priority) :
    c.Admits p ↔ outranks kept (name, p) = true := by
  rw [Admits, held.1, held.2]
  cases kept with
  | none => simp [outranks]
  | some x => simp [outranks]

theorem offer_host_keeps (kept : Option (Ranked Text)) (held : c.KeepsHost kept) (name : Text)
    (p : Priority) (set : p ≠ .unset) :
    (c.offerHost name p).KeepsHost (prefer kept (name, p)) := by
  have same : c.hostPriority.below p = outranks kept (name, p) := by
    rw [held.2]
    cases kept with
    | none => cases p <;> first | rfl | exact absurd rfl set
    | some x => rfl
  rw [offerHost, prefer, same]
  split
  · exact ⟨rfl, rfl⟩
  · exact held

theorem offer_keeps (kept : Option (Ranked Text)) (held : c.KeepsHost kept) (a : Authority) (p : Priority) :
    (c.offer a p).KeepsHost (prefer kept (a.host, p)) := by
  have taken := c.admits_outranks kept held a.host p
  rw [prefer]
  by_cases admits : c.Admits p
  · rw [if_pos (taken.mp admits)]
    exact c.offer_admitted_host a p admits
  · rw [if_neg (mt taken.mpr admits), c.offer_unadmitted a p admits]
    exact held

theorem place_keeps (kept : Option (Ranked Text)) (held : c.KeepsHost kept) (b : Bid) (sound : b.IsSound) :
    (c.place b).KeepsHost (b.host?.elim kept (prefer kept)) := by
  cases b with
  | host name p => exact c.offer_host_keeps kept held name p sound
  | port n p => exact ⟨(c.offer_port_host n p).trans held.1, (c.offer_port_host_priority n p).trans held.2⟩
  | authority a p => exact c.offer_keeps kept held a p

theorem place_all_keeps (bids : List Bid) (sound : ∀ b ∈ bids, b.IsSound) :
    (empty.placeAll bids).KeepsHost (leader (Bid.hosts bids)) := by
  induction bids using List.reverseRecOn with
  | nil => exact ⟨rfl, rfl⟩
  | append_singleton bids b ih =>
      rw [List.forall_mem_append] at sound
      have step := (empty.placeAll bids).place_keeps _ (ih sound.1) b (sound.2 b (List.mem_singleton_self b))
      rw [place_all_append, Bid.hosts, List.filterMap_append]
      cases named : b.host? with
      | none =>
          rw [List.filterMap_cons_none named, List.filterMap_nil, List.append_nil]
          rw [named] at step
          exact step
      | some x =>
          rw [List.filterMap_cons_some named, List.filterMap_nil, leader_append]
          rw [named] at step
          exact step

theorem place_given (b : Bid) (sound : b.IsSound) (n : UInt16) (port : (c.place b).port = some n) :
    c.port = some n ∨ b.Gives n := by
  cases b with
  | host name p =>
      left
      rw [place, offerHost] at port
      split at port <;> exact port
  | port m p =>
      refine (c.offer_port_given m n p port).imp_right fun taken => ?_
      obtain ⟨rfl, positive⟩ := taken
      exact ⟨positive, p, rfl⟩
  | authority a p =>
      refine (c.offer_given a n p port).imp_right fun own => ?_
      obtain ⟨text, read⟩ := sound.2
      exact ⟨Authority.read_positive text a n read own, p, congrArg (Option.map (·, p)) own⟩

theorem place_all_given (bids : List Bid) (sound : ∀ b ∈ bids, b.IsSound) (n : UInt16)
    (port : (empty.placeAll bids).port = some n) : ∃ b ∈ bids, b.Gives n := by
  induction bids using List.reverseRecOn with
  | nil => cases port
  | append_singleton bids b ih =>
      rw [List.forall_mem_append] at sound
      rw [place_all_append] at port
      rcases (empty.placeAll bids).place_given b (sound.2 b (List.mem_singleton_self b)) n port with earlier | own
      · obtain ⟨o, member, gives⟩ := ih sound.1 earlier
        exact ⟨o, List.mem_append_left _ member, gives⟩
      · exact ⟨b, List.mem_append_right _ (List.mem_singleton_self b), own⟩

-- There is no port only where none was ever taken, or where a structured authority brought none.
def PortExplained : Prop := c.port = none → c.portPriority = .unset ∨ c.portPriority = .forwarded

theorem offer_port_explained (explained : c.PortExplained) (n : UInt16) (p : Priority) :
    (c.offerPort n p).PortExplained := by
  rw [offerPort]
  split
  · intro unset
    cases unset
  · exact explained

theorem place_explained (b : Bid) (explained : c.PortExplained) : (c.place b).PortExplained := by
  cases b with
  | host name p =>
      rw [place, offerHost]
      split <;> exact explained
  | port n p => exact c.offer_port_explained explained n p
  | authority a p =>
      rw [place]
      by_cases admits : c.Admits p
      · by_cases structured : p = .forwarded
        · subst structured
          rw [c.offer_structured a admits]
          exact fun _ => .inr rfl
        · rw [c.offer_unstructured a p admits structured]
          cases a.port with
          | none => exact explained
          | some n => exact offer_port_explained ⟨some a.host, p, c.port, c.portPriority⟩ explained n p
      · rw [c.offer_unadmitted a p admits]
        exact explained

theorem place_all_explained (bids : List Bid) : (empty.placeAll bids).PortExplained := by
  induction bids using List.reverseRecOn with
  | nil => exact fun _ => .inl rfl
  | append_singleton bids b ih =>
      rw [place_all_append]
      exact place_explained _ b ih

structure Stands (a : Authority) (c : Candidate) : Prop where
  host : c.host.isSome = true
  above : Priority.forwarded.rank ≤ c.hostPriority.rank
  port : c.port = a.port
  priority : c.portPriority = .forwarded

variable (a : Authority)

theorem stands_renamed (stands : c.Stands a) (name : Text) (p : Priority) (above : c.hostPriority.below p = true) :
    Stands a { c with host := some name, hostPriority := p } := by
  rw [Priority.below_iff] at above
  exact ⟨rfl, Int.le_trans stands.above (Int.le_of_lt above), stands.port, stands.priority⟩

theorem offer_port_unforced (stands : c.Stands a) (n : UInt16) (p : Priority) (unforced : 0 < n → p ≠ .forced) :
    c.offerPort n p = c := by
  refine if_neg fun both => unforced both.1 ?_
  rw [stands.priority, Priority.below_iff] at both
  exact Priority.above_forwarded p both.2

theorem place_stands (b : Bid) (stands : c.Stands a) (unforced : ¬ b.ForcesPort) : (c.place b).Stands a := by
  cases b with
  | host name p =>
      rw [place, offerHost]
      split
      · exact c.stands_renamed a stands name p ‹_›
      · exact stands
  | port n p =>
      rw [place, c.offer_port_unforced a stands n p fun positive forced => unforced ⟨n, positive, forced ▸ rfl⟩]
      exact stands
  | authority d p =>
      rw [place]
      by_cases admits : c.Admits p
      · have above : c.hostPriority.below p = true := admits.resolve_left (Option.isSome_iff_ne_none.mp stands.host)
        have forced : p = .forced :=
          Priority.above_forwarded p (Int.lt_of_le_of_lt stands.above ((Priority.below_iff _ p).mp above))
        have renamed := c.stands_renamed a stands d.host p above
        rw [c.offer_unstructured d p admits (forced ▸ nofun)]
        cases port : d.port with
        | none => exact renamed
        | some n =>
            dsimp only
            rw [offer_port_unforced _ a renamed n p fun positive _ => unforced ⟨n, positive, ?_⟩]
            · exact renamed
            · rw [Bid.port?, port, forced]
              rfl
      · rw [c.offer_unadmitted d p admits]
        exact stands

theorem place_all_stands (bids : List Bid) (stands : c.Stands a) (unforced : ∀ b ∈ bids, ¬ b.ForcesPort) :
    (c.placeAll bids).Stands a := by
  induction bids generalizing c with
  | nil => exact stands
  | cons b rest ih =>
      rw [List.forall_mem_cons] at unforced
      exact ih (c.place b) (c.place_stands a b stands unforced.1) unforced.2

theorem accumulates (bids : List Bid) (sound : ∀ b ∈ bids, b.IsSound) :
    let c := empty.placeAll bids
    (Bid.hosts bids = [] ∧ c.host = none ∧ c.hostPriority = .unset ∨
      ∃ name p, Leads (name, p) (Bid.hosts bids) ∧ c.host = some name ∧ c.hostPriority = p) ∧
    (∀ n, c.port = some n → 1 ≤ n.toNat ∧ n.toNat ≤ 65535 ∧ ∃ b ∈ bids, b.Gives n) ∧
    (c.port = none → c.portPriority = .unset ∨ c.portPriority = .forwarded) ∧
    ∀ before a after, bids = before ++ .authority a .forwarded :: after →
      ((empty.placeAll before).Admits .forwarded ↔ ∀ x ∈ Bid.hosts before, x.2.rank < Priority.forwarded.rank) ∧
      ((empty.placeAll before).Admits .forwarded → (∀ b ∈ after, ¬ b.ForcesPort) → c.port = a.port) := by
  intro c
  have host : c.KeepsHost (leader (Bid.hosts bids)) := place_all_keeps bids sound
  refine ⟨?_, ?_, place_all_explained bids, ?_⟩
  · rcases leader_cases (Bid.hosts bids) with ⟨empty, none⟩ | ⟨x, leads, found⟩
    · rw [none] at host
      exact .inl ⟨empty, host⟩
    · rw [found] at host
      exact .inr ⟨x.1, x.2, leads, host⟩
  · intro n port
    obtain ⟨b, member, positive, given⟩ := place_all_given bids sound n port
    exact ⟨UInt16.lt_iff_toNat_lt.mp positive, Nat.le_of_lt_succ n.toNat_lt, b, member, positive, given⟩
  · rintro before a after rfl
    constructor
    · have held := place_all_keeps before fun b member => sound b (List.mem_append_left _ member)
      rw [admits_outranks _ _ held a.host .forwarded]
      exact outranks_leader _ _
    · intro admits unforced
      have taken : ((empty.placeAll before).place (.authority a .forwarded)).Stands a := by
        rw [place, offer_structured _ a admits]
        exact ⟨rfl, Int.le_refl _, rfl, rfl⟩
      have whole : c = ((empty.placeAll before).place (.authority a .forwarded)).placeAll after :=
        place_all_append empty _ _
      rw [whole]
      exact (place_all_stands _ a after taken unforced).port

def contested : List Bid :=
  [.port 9000 .forced, .authority ⟨"internal".toList, some 8080⟩ .request, .host "a.example".toList .forwardedHost,
    .host "b.example".toList .forwardedHost, .authority ⟨"www.example".toList, none⟩ .forwarded,
    .port 8443 .forwardedPort,
    .authority ⟨"[::1]".toList, none⟩ .forced]

theorem contested_sound : ∀ b ∈ contested, b.IsSound := by
  have internal : Authority.read "internal:8080".toList = .ok ⟨"internal".toList, some 8080⟩ := by decide +kernel
  have www : Authority.read "www.example".toList = .ok ⟨"www.example".toList, none⟩ := by decide +kernel
  have loopback : Authority.read "::1".toList = .ok ⟨"[::1]".toList, none⟩ := by decide +kernel
  simp only [contested, List.forall_mem_cons, Bid.IsSound]
  exact ⟨nofun, ⟨nofun, _, internal⟩, nofun, nofun, ⟨nofun, _, www⟩, nofun, ⟨nofun, _, loopback⟩, nofun⟩

theorem accumulates_contested :
    (∀ b ∈ contested, b.IsSound) ∧ (empty.placeAll contested).host = some "[::1]".toList ∧
    (empty.placeAll contested).hostPriority = .forced ∧ (empty.placeAll contested).port = none ∧
    (empty.placeAll contested).portPriority = .forwarded := by
  obtain ⟨host, -, portless, structured⟩ := accumulates contested contested_sound
  have leads : Leads ("[::1]".toList, .forced) (Bid.hosts contested) := (leader_iff _ _).mp (by decide +kernel)
  obtain ⟨name, p, first, named, priority⟩ :=
    host.resolve_left fun none => List.ne_nil_of_mem (leads_mem _ _ leads) none.1
  cases leads_unique _ _ _ first leads
  obtain ⟨admits, stays⟩ := structured (contested.take 4) ⟨"www.example".toList, none⟩ (contested.drop 5) rfl
  have port : (empty.placeAll contested).port = none := by
    refine stays (admits.mpr (by decide +kernel)) ?_
    rintro b member ⟨n, -, forced⟩
    simp only [contested, List.drop_succ_cons, List.drop_zero, List.mem_cons, List.not_mem_nil, or_false] at member
    rcases member with rfl | rfl <;> simp [Bid.port?] at forced
  have explained := portless port
  exact ⟨contested_sound, named, priority, port, explained.resolve_left (by decide +kernel)⟩

end Candidate

end Gateway.Forwarding
